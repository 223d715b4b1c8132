import MessagePipe.Proofs.Reading
import MessagePipe.Proofs.Rounds
import MessagePipe.Proofs.Writing

/-!
# Every transfer completes and loses nothing

The throughput program of §11.5 of the specification. A writing and a reading task are polled in any
order; a task may be polled that has not started, or has a command to take (`Transfer.MayPoll`). The
transfer completes because it is never stuck and cannot go on forever.

* `Transfer.Polls`: polls one after the other, each of a task that may be polled. `Transfer.Stands`
  is what all of them keep: where the two tasks stand, what they have accounted for, and that each
  is awake to what its pipe needs (`Proofs/Scene`, `Proofs/Tasks`).
* `Transfer.Polls.exists_stands`: the invariant holds after any polls, and each poll has used up
  some of what there is to do (`Proofs/Rounds`), so there are only so many polls.
* `Transfer.Stands.finished_or_mayPoll`: where neither task may be polled, both have ended. At rest,
  the reader has read all that was published, so a writer that waits would have been woken
  (`Transfer.Stands.not_both_waiting`).
* `Transfer.completes`: for every number of messages, size of payload, number of fragments,
  watermark and distance of watermarks, and every order of polls: at most `2 * messages + 8` polls,
  both tasks end, their accounts agree with the job, and neither mailbox ended early.
* `Transfer.completes_with_one_in_flight`: a transfer with a watermark of one, message by message.

Premises: the reading side was made with delay, and both sides have sinks. Out of scope: accounts as
64-bit words, and two worker threads that run at once.
-/

namespace MessagePipe

namespace Transfer

/-- Has a task to wait, or has it ended? -/
def IsAtRest (t : Transfer) (role : Role) : Prop :=
  t.phase role = .waiting ∧ t.link.commands role.side = [] ∨ t.phase role = .finished

/-- Where polls lead to, in whatever order the tasks are polled. -/
inductive Polls (t₀ : Transfer) : List Role → Transfer → Prop where
  | start : Polls t₀ [] t₀
  | step {roles : List Role} {t : Transfer} {role : Role} (h : Polls t₀ roles t)
      (hp : t.MayPoll role) : Polls t₀ (roles ++ [role]) (t.poll role)

/-- May the tasks be polled in this order? -/
def Permits (t : Transfer) : List Role → Prop
  | [] => True
  | role :: roles => t.MayPoll role ∧ (t.poll role).Permits roles

theorem Polls.append {t₀ t : Transfer} {roles : List Role} (h : Polls t₀ roles t)
    (more : List Role) (hp : t.Permits more) : Polls t₀ (roles ++ more) (more.foldl poll t) := by
  induction more generalizing t roles with
  | nil =>
    rw [List.append_nil]
    exact h
  | cons role more ih =>
    have := ih (h.step hp.1) hp.2
    rw [List.append_assoc] at this
    exact this

open Scene (Awake)

/-- How a transfer stands in a scene. -/
structure Stands (t : Transfer) (y : Scene) : Prop where
  link : t.link = y.link
  writer : (writing t.job).Stands (WriterHolds t.job) t.writer y
  reader : reading.Stands ReaderHolds t.reader y
  untorn : ¬ y.link.Torn

variable {t : Transfer} {y : Scene} {role : Role}

/-- A task that may be polled is awake. -/
theorem Stands.awake (h : t.Stands y) (hp : t.MayPoll role) : Awake role.side y := by
  have hn : t.phase role ≠ .finished := by
    rcases hp with hp | ⟨hp, -⟩ <;> rw [hp] <;> rintro ⟨⟩
  cases role with
  | writer => exact h.writer.awake hn
  | reader => exact h.reader.awake hn

/-- **A poll leads to where the task waits or has ended.** -/
theorem Stands.poll (h : t.Stands y) (hp : t.MayPoll role) :
    (t.poll role).IsAtRest role ∧ ∃ z, (t.poll role).Stands z := by
  have hawake := h.awake hp
  rw [MayPoll, h.link] at hp
  cases role with
  | writer =>
    obtain ⟨t', z, hl, hturned, hstands, hrest⟩ := (serves_writing t.job).poll h.writer hp
    obtain ⟨u, hu, hpair⟩ := hturned.exists_spares
    have hpoll : t.poll .writer = { t with writer := t', link := z.link } := by
      unfold Transfer.poll
      rw [h.link, hl]
    rw [hpoll]
    refine ⟨hrest, z, rfl, hstands, ?_, fun ht => h.untorn (hturned.torn ht)⟩
    refine h.reader.of_turned rfl hawake hturned ?_
    rw [hpair]
    exact h.reader.holds.of_spares hu
  | reader =>
    obtain ⟨t', z, hl, hturned, hstands, hrest⟩ := serves_reading.poll h.reader hp
    obtain ⟨u, hu, hpair⟩ := hturned.exists_spares
    have hpoll : t.poll .reader = { t with reader := t', link := z.link } := by
      unfold Transfer.poll
      rw [h.link, hl]
    rw [hpoll]
    refine ⟨hrest, z, rfl, ?_, hstands, fun ht => h.untorn (hturned.torn ht)⟩
    refine h.writer.of_turned rfl hawake hturned ?_
    rw [hpair]
    exact h.writer.holds.of_spares hu

/-- A task that may not be polled waits, or has ended. -/
theorem Stands.isAtRest (h : t.Stands y) (hn : ¬ t.MayPoll role) : t.IsAtRest role := by
  have hf : ∀ fault, t.phase role ≠ .failed fault := by
    intro fault hf
    cases role with
    | writer =>
      have hh := h.writer.holds
      rw [show t.writer.phase = .failed fault from hf] at hh
      exact hh
    | reader =>
      have hh := h.reader.holds
      rw [show t.reader.phase = .failed fault from hf] at hh
      exact hh
  unfold MayPoll at hn
  unfold IsAtRest
  cases hp : t.phase role with
  | unstarted => exact absurd (.inl hp) hn
  | waiting => exact .inl ⟨rfl, by_contra fun hc => hn (.inr ⟨hp, hc⟩)⟩
  | finished => exact .inr rfl
  | failed fault => exact absurd hp (hf fault)

/-- **At rest, two tasks do not both wait.** -/
theorem Stands.not_both_waiting (h : t.Stands y) (hd : ∀ s, y.link.commands s = [])
    (hw : t.writer.phase = .waiting) (hr : t.reader.phase = .waiting) : False := by
  have hwriter := h.writer.holds
  have hreader := h.reader.holds
  rw [hw] at hwriter
  rw [hr] at hreader
  replace hwriter : WriterWaits t.job t.writer.stats y.pair := hwriter
  replace hreader : ReaderWaits t.reader.stats y.pair := hreader
  have ha : Awake .a y := h.writer.awake (by rw [hw]; rintro ⟨⟩)
  have hb : Awake .b y := h.reader.awake (by rw [hr]; rintro ⟨⟩)
  have hdue : ∀ s, y.pair.due s = [] := by
    intro s
    cases s with
    | a => exact (y.due_eq ha.receiving).trans (hd .a)
    | b => exact (y.due_eq hb.receiving).trans (hd .b)
  rcases hwriter.stage with ⟨-, hs⟩ | ⟨-, hs, ho⟩
  · have hc := (y.oneWay.closed_of_idle hdue hreader.idle hs).1
    rw [ha.running] at hc
    cases hc
  · have hf := y.oneWay.not_full_of_idle hdue hreader.idle hs fun q hq =>
      ⟨hwriter.noneReady q hq, hwriter.noneOpen q hq⟩
    rw [y.oneWay.tallied.cached .a hs ho] at hf
    cases hf

/-- **A transfer is never stuck:** both tasks have ended, or one of them may be polled. -/
theorem Stands.finished_or_mayPoll (h : t.Stands y) :
    (∀ role, t.phase role = .finished) ∨ ∃ role, t.MayPoll role := by
  by_contra hn
  rw [not_or, not_exists] at hn
  obtain ⟨hf, hp⟩ := hn
  have hcommands : ∀ role : Role, t.link.commands role.side = [] → y.link.commands role.side = [] :=
    fun (role : Role) hc => by rw [← h.link]; exact hc
  rcases h.isAtRest (hp .writer) with ⟨hw, hcw⟩ | hw <;>
    rcases h.isAtRest (hp .reader) with ⟨hr, hcr⟩ | hr
  · refine h.not_both_waiting (fun s => ?_) hw hr
    cases s with
    | a => exact hcommands .writer hcw
    | b => exact hcommands .reader hcr
  -- A task that waits would find the end of its mailbox, had its peer left.
  · have ha : Awake .a y := h.writer.awake (by rw [show t.writer.phase = _ from hw]; rintro ⟨⟩)
    have hheld := ha.isHeld (hcommands .writer hcw)
    rw [show y.link.isHeld .a = false from (h.reader.ended hr).2] at hheld
    cases hheld
  · have hb : Awake .b y := h.reader.awake (by rw [show t.reader.phase = _ from hr]; rintro ⟨⟩)
    have hheld := hb.isHeld (hcommands .reader hcr)
    rw [show y.link.isHeld .b = false from (h.writer.ended hw).2] at hheld
    cases hheld
  · refine hf fun role => ?_
    cases role with
    | writer => exact hw
    | reader => exact hr

/-- **The writing task accounts for all messages.** -/
theorem Stands.result_writer (h : t.Stands y) {stats : WriterStats}
    (hr : t.writer.result = some stats) :
    stats.messages = t.job.messages ∧
      stats.bytes = t.job.messages * t.job.frames * t.job.payload.size := by
  obtain ⟨hp, rfl⟩ := Task.result_eq_some hr
  have he := h.writer.holds
  rw [hp] at he
  replace he : WriterEnds t.job t.writer.stats y.pair := he
  refine ⟨he.messages, ?_⟩
  rw [he.bytes, Nat.mul_comm t.job.payload.size, Nat.mul_assoc]

/-- **The reading task accounts for all messages.** -/
theorem Stands.result_reader (h : t.Stands y) {stats : ReaderStats}
    (hr : t.reader.result = some stats) :
    stats.messages = t.job.messages ∧ stats.frames = t.job.messages * t.job.frames ∧
      stats.bytes = t.job.messages * t.job.frames * t.job.payload.size := by
  obtain ⟨hp, rfl⟩ := Task.result_eq_some hr
  have hc := h.reader.holds
  rw [hp] at hc
  replace hc : t.reader.stats.Counts (y.pair.obtained .b) := hc
  obtain ⟨hs, hread⟩ := y.oneWay.drained_of_closed (h.reader.ended hp).1
  rw [hread, h.writer.holds.written_eq hs] at hc
  refine ⟨?_, ?_, ?_⟩
  · rw [hc.messages, t.job.messages_sent]
  · rw [hc.frames, t.job.length_sent]
  · rw [hc.bytes, t.job.totalSize_sent, Nat.mul_comm t.job.payload.size, Nat.mul_assoc]

/-- **How a fresh transfer stands.** -/
theorem exists_stands {config : Config} (hc : config.isValid = true) (a : Options) {b : Options}
    (hb : b.delay = true) (j : Job) :
    ∃ l y, Link.create config { options := a } { options := b } = .ok l ∧
      Stands { job := j, link := l } y := by
  have hv : config.validate = .ok () := by rw [Config.validate, if_pos hc]
  obtain ⟨l, hl⟩ : ∃ l, Link.create config { options := a } { options := b } = .ok l := by
    unfold Link.create Pipe.pair
    rw [hv]
    exact ⟨_, rfl⟩
  obtain ⟨y, rfl, hy⟩ := Scene.exists_fresh hl hb
  have hpipe : ∀ s, y.pair.pipe s = (y.link.side s).pipe := fun s => (y.pipe_eq s).symm
  have hstate : ∀ s, (y.pair.pipe s).state = .active := fun s => by
    rw [hpipe]
    exact (Link.fresh_of_create hl s).state
  have hawake : ∀ s, Awake s y := fun s => by
    refine ⟨Link.receiving_of_create hl s, y.oneWay.sound.isClosed_of_readable ?_, fun hn => ?_⟩
    · rw [hstate]
      rfl
    · rw [Link.isHeld, Link.inbox_of_create hl] at hn
      cases hn
  have hwrote : Wrote j {} y.pair := by
    rw [hy]
    exact ⟨rfl, (Nat.zero_mul _).symm, Nat.zero_le _, fun _ _ => rfl⟩
  refine ⟨y.link, y, hl, rfl, ⟨⟨hwrote, hstate .a⟩, fun _ => hawake .a, by rintro ⟨⟩⟩,
    ⟨?_, fun _ => hawake .b, by rintro ⟨⟩⟩, Link.not_torn_of_create hl⟩
  rw [hy]
  exact .nil

/-- What polls keep, and every poll leaves less to do. -/
theorem Polls.exists_stands {t₀ : Transfer} {y₀ : Scene} (h₀ : t₀.Stands y₀)
    (hs : t₀.link.IsSound) {roles : List Role} (h : Polls t₀ roles t) :
    t.job = t₀.job ∧ t.link.IsSound ∧ (∃ y, t.Stands y) ∧ roles.length + t.toil ≤ t₀.toil := by
  induction h with
  | start => exact ⟨rfl, hs, ⟨y₀, h₀⟩, (Nat.zero_add _).le⟩
  | @step roles t role h hp ih =>
    obtain ⟨hj, hl, ⟨y, hy⟩, hle⟩ := ih
    obtain ⟨hj', hl', -, -, hlt⟩ := t.poll_rests hl role
    have hlt := hlt hp
    refine ⟨hj'.trans hj, hl', (hy.poll hp).2, ?_⟩
    rw [List.length_append, List.length_singleton]
    omega

/-- **Every transfer completes and loses nothing.** In whatever order two tasks are polled, one of
them may be polled until both have ended, and that is after so many polls; each poll ends where the
task waits or has ended. What the tasks return accounts for all that was to be written, and neither
found its mailbox at its end. -/
theorem completes {config : Config} (hc : config.isValid = true) (a : Options) {b : Options}
    (hb : b.delay = true) (j : Job) :
    ∃ l, Link.create config { options := a } { options := b } = .ok l ∧
      ∀ {roles : List Role} {t : Transfer}, Polls { job := j, link := l } roles t →
        roles.length ≤ 2 * j.messages + 8 ∧
        (∀ role, t.MayPoll role → (t.poll role).IsAtRest role) ∧
        ((∀ role, t.phase role = .finished) ∨ ∃ role, t.MayPoll role) ∧
        (∀ stats, t.writer.result = some stats →
          stats.messages = j.messages ∧ stats.bytes = j.messages * j.frames * j.payload.size) ∧
        (∀ stats, t.reader.result = some stats →
          stats.messages = j.messages ∧ stats.frames = j.messages * j.frames ∧
            stats.bytes = j.messages * j.frames * j.payload.size) ∧
        ∀ role, .cutOff role ∉ t.link.log.toList := by
  obtain ⟨l, y₀, hl, h₀⟩ := exists_stands hc a hb j
  have htoil := toil_of_create hl j
  refine ⟨l, hl, fun {roles t} h => ?_⟩
  obtain ⟨rfl, -, ⟨y, hy⟩, hle⟩ := h.exists_stands h₀ (.of_create hl)
  refine ⟨by omega, fun role hp => (hy.poll hp).1, hy.finished_or_mayPoll,
    fun stats => hy.result_writer, fun stats => hy.result_reader, fun role hm => ?_⟩
  rw [hy.link] at hm
  exact hy.untorn ⟨role, hm⟩

/-- Of two messages of two frames each one may be in flight: the writer has to wait once. -/
theorem completes_with_one_in_flight :
    ∃ (l : Link) (roles : List Role) (t : Transfer),
      Link.create {} { options := {} } { options := { hwm := 1 } } = .ok l ∧
      Polls { job := .ofSizes 2 3 2, link := l } roles t ∧
      (∃ stats, t.writer.result = some stats ∧ stats.stalls = 1 ∧ stats.messages = 2 ∧
        stats.bytes = 12) ∧
      (∃ stats, t.reader.result = some stats ∧ stats.messages = 2 ∧ stats.frames = 4 ∧
        stats.bytes = 12) ∧
      ∀ role, .cutOff role ∉ t.link.log.toList := by
  obtain ⟨l, hl, h⟩ := @completes {} rfl {} { hwm := 1 } rfl (.ofSizes 2 3 2)
  obtain ⟨t, hp, hw, hr⟩ : ∃ t, Polls { job := .ofSizes 2 3 2, link := l }
      ([] ++ [.writer, .reader, .writer, .reader, .writer, .reader]) t ∧
      t.writer.result = some { messages := 2, bytes := 12, stalls := 1 } ∧
      t.reader.result = some { messages := 2, frames := 4, bytes := 12, wakeups := 1 } := by
    obtain rfl := Except.ok.inj hl
    refine ⟨_, Polls.start.append _ ⟨?_, ?_, ?_, ?_, ?_, ?_, trivial⟩, ?_, ?_⟩ <;> decide
  obtain ⟨-, -, -, hwriter, hreader, hcut⟩ := h hp
  exact ⟨l, _, t, hl, hp, ⟨_, hw, rfl, hwriter _ hw⟩, ⟨_, hr, hreader _ hr⟩, hcut⟩

end Transfer

end MessagePipe
