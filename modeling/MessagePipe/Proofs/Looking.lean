import MessagePipe.Proofs.Handshake

/-!
# Looking is reading without taking

An owner can ask whether there is a frame to read. The two ways to look for one, `check_read` and
`read` (§4.2 of the specification), test the same things in another order, and share what they do
where there is none: the reader parks, or a delimiter is taken and the handshake goes on. So a look
is not without consequences, but it has none that the read would not have had.

* `Queue.read_of_checkRead`: what a reader finds after it looked is what it would have found, and
  `Queue.read_of_checkRead_false`: one that looked in vain has parked as it would have by reading.
* `Turn.look_cases`: looking has done all that reading would, or nothing that reading would notice.
  `look_delimiter` is the first of the two and `look_frame` the second.
* `Reacts.look_atDelimiter`: whichever of the two comes to the delimiter gives the same signal to
  the handshake.
* `Link.looking_agrees`: for every link, any number of looks before a read are as if they had not
  been: the answer of the read is the same, and so are both ends, all queues, the mailboxes, the
  events and the log. A look says yes exactly if the read gives a frame.
* `Link.looking_agrees_at_delimiter`: two looks at a delimiter. The first one acknowledges.

There is no premise at all, so an end without an inbound queue is covered: `read` marks it as dry
and `check_read` does not, which makes no difference, for such an end does not read any more.

Out of scope: commands that arrive between the look and the read.
-/

namespace MessagePipe

namespace Queue

universe u

variable {α : Type u} {q q' : Queue α}

/-- A reader that looked in vain has parked, as it would have by reading. -/
theorem read_of_checkRead_false (h : q.checkRead = (false, q')) : q.read = (none, q') := by
  unfold checkRead at h
  split at h
  · cases h
  · next hp =>
    obtain ⟨hp', rfl⟩ := Prod.mk.inj h
    rw [read, dif_neg hp, dif_neg (by simp [hp'])]

/-- **A reader that saw something reads what it would have read,** and sees it again. -/
theorem read_of_checkRead (h : q.checkRead = (true, q')) :
    q'.read = q.read ∧ q'.checkRead = (true, q') := by
  unfold checkRead at h
  split at h
  · next hp =>
    cases h
    exact ⟨rfl, if_pos hp⟩
  · next hp =>
    obtain ⟨hp', rfl⟩ := Prod.mk.inj h
    refine ⟨?_, if_pos hp'⟩
    rw [read, dif_pos hp', read, dif_neg hp, dif_pos hp']

/-- **A reader that sees an item takes that item,** looking again or not. -/
theorem look_cons {x : α} {xs : List α} (h : q.segments.visible = x :: xs) :
    ∃ seen taken, q.checkRead = (true, seen) ∧ seen.probe = (some x, seen) ∧
      seen.read = (some x, taken) ∧ q.read = (some x, taken) := by
  obtain ⟨seen, hseen, hs⟩ := checkRead_cons h
  obtain ⟨taken, htaken, -⟩ := read_cons h
  obtain ⟨hread, hagain⟩ := read_of_checkRead hseen
  obtain ⟨seen', hprobe, -⟩ := probe_cons (hs ▸ h)
  have hkept : seen.probe.2 = seen := by rw [probe, hagain]
  refine ⟨seen, taken, hseen, ?_, hread.trans htaken, htaken⟩
  exact Prod.ext (by rw [hprobe]) hkept

end Queue

/-- Behind a delimiter nothing is read. -/
theorem State.isReadable_of_delimiterRead {s s' : State} {a : Action}
    (h : s.on .delimiterRead = some (s', a)) : s'.isReadable = false := by
  cases s <;> cases h <;> rfl

namespace Turn

/-- Looking takes the delimiter at the head. -/
theorem mayRead_signalled_delimiterRead {t : Turn} {s : State} {a : Action}
    (h : t.pipe.state.on .delimiterRead = some (s, a)) :
    (t.signalled s .delimiterRead a).pipe.mayRead = false := by
  have hs : (t.signalled s .delimiterRead a).pipe.state = s := by
    cases a with
    | deallocate ack => cases ack <;> simp [signalled, act, releaseAndAck]
    | _ => simp [signalled, act, releaseAndAck]
  rw [Pipe.mayRead, hs, State.isReadable_of_delimiterRead h, Bool.and_false]

variable {t : Turn} {id : QueueId} {f : Frame} {fs : List Frame}

/-- At a delimiter, looking does what reading does: the delimiter is taken. -/
theorem look_delimiter (hm : t.pipe.mayRead = true) (hi : t.pipe.inbound = some id)
    (hv : (t.queues.get id).segments.visible = f :: fs) (hf : f.isDelimiter = true) :
    ∃ t' : Turn, t.checkRead = t'.answer false ∧ t.read = t'.answer none ∧
      t'.pipe.mayRead = false := by
  obtain ⟨seen, taken, hseen, hprobe, hagain, htaken⟩ := Queue.look_cons hv
  obtain ⟨s, a, hon⟩ := t.pipe.on_delimiterRead_of_mayRead hm
  refine ⟨(t.putQueue id taken).signalled s .delimiterRead a, ?_, ?_,
    mayRead_signalled_delimiterRead (t := t.putQueue id taken) hon⟩
  · rw [checkRead, if_pos hm, hi]
    dsimp only
    rw [hseen]
    dsimp only
    rw [hprobe]
    dsimp only
    rw [if_pos hf, hagain]
    dsimp only
    rw [transition_of_on (t.putQueue id taken) hon]
    rfl
  · rw [read, if_pos hm, hi]
    dsimp only
    rw [htaken]
    dsimp only
    rw [if_pos hf, transition_of_on (t.putQueue id taken) hon]
    rfl

/-- At another frame, looking leaves the frame where it is. -/
theorem look_frame (hm : t.pipe.mayRead = true) (hi : t.pipe.inbound = some id)
    (hv : (t.queues.get id).segments.visible = f :: fs) (hf : f.isDelimiter = false) :
    ∃ t' : Turn, t.checkRead = t'.answer true ∧ t'.effects = t.effects ∧ t'.read = t.read ∧
      t.read.result = .ok (some f) := by
  obtain ⟨seen, taken, hseen, hprobe, hagain, htaken⟩ := Queue.look_cons hv
  have hf' : ¬f.isDelimiter = true := by simp [hf]
  have hread : t.read = ((t.putQueue id taken).countRead f).answer (some f) := by
    rw [read, if_pos hm, hi]
    dsimp only
    rw [htaken]
    exact if_neg hf'
  refine ⟨t.putQueue id seen, ?_, rfl, ?_, by rw [hread]; rfl⟩
  · rw [checkRead, if_pos hm, hi]
    dsimp only
    rw [hseen]
    dsimp only
    rw [hprobe]
    exact if_neg hf'
  · rw [hread, read, if_pos (by exact hm), pipe_putQueue, hi]
    dsimp only
    rw [queues_putQueue, Queues.get_set_self, hagain]
    dsimp only
    rw [if_neg hf', putQueue, putQueue, Queues.set_set]
    rfl

/-- **What looking does.** Either there is nothing to read, looking has done what reading does, and
the endpoint looks no further; or nothing was done that reading would notice. -/
theorem look_cases (t : Turn) :
    (∃ t' : Turn, t.checkRead = t'.answer false ∧ t.read = t'.answer none ∧
      t'.pipe.mayRead = false) ∨
    ∃ (found : Bool) (t' : Turn), t.checkRead = t'.answer found ∧ t'.effects = t.effects ∧
      t'.read = t.read ∧ (found = true ↔ ∃ f, t.read.result = .ok (some f)) := by
  by_cases hm : t.pipe.mayRead = true
  swap
  · exact .inl ⟨t, if_neg hm, if_neg hm, by simpa using hm⟩
  cases hi : t.pipe.inbound with
  | none =>
    have hread : t.read = t.runDry.answer none := by rw [read, if_pos hm, hi]
    refine .inr ⟨false, t, by rw [checkRead, if_pos hm, hi], rfl, rfl, ?_⟩
    simp [hread, answer]
  | some id =>
    cases hv : (t.queues.get id).segments.visible with
    | nil =>
      -- The reader parks.
      obtain ⟨q, hq, -⟩ := Queue.checkRead_nil hv
      refine .inl ⟨(t.putQueue id q).runDry, ?_, ?_, rfl⟩
      · rw [checkRead, if_pos hm, hi]
        dsimp only
        rw [hq]
      · rw [read, if_pos hm, hi]
        dsimp only
        rw [Queue.read_of_checkRead_false hq]
    | cons f fs =>
      cases hf : f.isDelimiter with
      | true => exact .inl (look_delimiter hm hi hv hf)
      | false =>
        obtain ⟨t', hc, he, hr, hres⟩ := look_frame hm hi hv hf
        exact .inr ⟨true, t', hc, he, hr, by simp [hres]⟩

end Turn

/-- **A delimiter at the head is taken by whoever looks,** with the same signal to the handshake: an
end in normal operation waits for the request, one that got it acknowledges. -/
theorem Reacts.look_atDelimiter {p : Pipe} {v : View} {c : Call} {reply : Reply} {r : Reaction}
    (h : Reacts p v (.call c) r) (hc : c.emptyReply = some reply) {q : QueueId} {f : Frame}
    {fs : List Frame} (hm : p.mayRead = true) (hi : p.inbound = some q)
    (hv : (v q).visible = f :: fs) (hf : f.isDelimiter = true) :
    (r.view q).visible = fs ∧
      (p.state = .active ∧ r.pipe.state = .delimited ∧ r.posted = [] ∨
        p.state = .pending ∧ r.pipe.state = .terminating ∧ r.posted = [.pipeTermAck]) := by
  obtain ⟨s, a, hon⟩ := p.on_delimiterRead_of_mayRead hm
  obtain rfl := h.unique (.lookDelimiter hc hm hi hv hf hon)
  refine ⟨View.visible_update_self .., ?_⟩
  have hr : p.state.isReadable = true := (Bool.and_eq_true_iff.1 hm).2
  cases hs : p.state <;> rw [hs] at hr hon <;> cases hr <;> cases hon
  · exact .inl ⟨rfl, rfl, rfl⟩
  · exact .inr ⟨rfl, rfl, rfl⟩

namespace Link

/-- A turn before another one, if it only changed the endpoint and the queues. -/
theorem settle_settle (l : Link) (s : Side) {t t' : Turn} (h : t.effects = []) :
    (l.settle s t).settle s t' = l.settle s t' := by
  obtain ⟨p, queues, effects⟩ := t
  obtain rfl : effects = [] := h
  cases s <;> rfl

theorem turn_settle (l : Link) (s : Side) {t : Turn} (h : t.effects = []) :
    (l.settle s t).turn s = t := by
  obtain ⟨p, queues, effects⟩ := t
  obtain rfl : effects = [] := h
  cases s <;> rfl

/-- An end that looks no further answers a read, and does nothing. -/
theorem read_of_not_mayRead {l : Link} {s : Side} (h : (l.side s).pipe.mayRead = false) :
    l.call s .read = ({ result := .ok .nothing }, l) := by
  have ht : (l.turn s).read = (l.turn s).answer none := if_neg (by simp [turn, h])
  unfold call
  rw [Turn.perform, ht]
  exact Prod.ext rfl (l.settle_turn s)

/-- Looking finds a frame exactly if reading would. -/
theorem checkRead_iff_read (l : Link) (s : Side) :
    ∃ found, (l.call s .checkRead).1.result = .ok (.flag found) ∧
      (found = true ↔ ∃ f, (l.call s .read).1.result = .ok (.frame f)) := by
  unfold call
  rw [Turn.perform, Turn.perform]
  rcases (l.turn s).look_cases with ⟨t, hc, hr, -⟩ | ⟨found, t, hc, -, -, hfound⟩
  · rw [hc, hr]
    exact ⟨false, rfl, by simp [Turn.answer, Outcome.map, Except.map, Reply.ofRead]⟩
  · rw [hc]
    refine ⟨found, rfl, hfound.trans (exists_congr fun f => ?_)⟩
    unfold Outcome.map
    cases (l.turn s).read.result with
    | error fault => simp [Except.map]
    | ok o => cases o <;> simp [Except.map, Reply.ofRead]

/-- **A look before a read is as if it had not been.** -/
theorem read_after_look (l : Link) (s : Side) :
    let look := l.call s .checkRead
    let later := look.2.call s .read
    let now := l.call s .read
    later.1.result = now.1.result ∧ look.1.effects ++ later.1.effects = now.1.effects ∧
      later.2 = now.2 := by
  intro look later now
  rcases (l.turn s).look_cases with ⟨t, hc, hr, hm⟩ | ⟨found, t, hc, he, hr, -⟩
  · -- Looking has done it all.
    have hlook : look = ({ result := .ok (.flag false), effects := t.effects }, l.settle s t) := by
      show l.call s .checkRead = _
      rw [call, Turn.perform, hc]
      rfl
    have hnow : now = ({ result := .ok .nothing, effects := t.effects }, l.settle s t) := by
      show l.call s .read = _
      rw [call, Turn.perform, hr]
      rfl
    have hlater : later = ({ result := .ok .nothing }, l.settle s t) := by
      show look.2.call s .read = _
      rw [hlook]
      exact read_of_not_mayRead (by rw [pipe_settle_self, hm])
    rw [hlater, hlook, hnow]
    exact ⟨rfl, List.append_nil _, rfl⟩
  · -- Looking was nothing but a look.
    have he : t.effects = [] := he
    have hlook : look.1.effects = [] ∧ look.2 = l.settle s t := by
      show (l.call s .checkRead).1.effects = [] ∧ (l.call s .checkRead).2 = l.settle s t
      rw [call, Turn.perform, hc]
      exact ⟨he, rfl⟩
    have hlater : later = now := by
      show look.2.call s .read = l.call s .read
      rw [hlook.2, call, call, turn_settle l s he, Turn.perform, Turn.perform, hr]
      exact Prod.ext rfl (l.settle_settle s he)
    rw [hlater, hlook.1]
    exact ⟨rfl, rfl, rfl⟩

/-- What is done, one thing after the other. -/
def Report.effectsAll (reports : List Report) : List Effect :=
  reports.flatMap Report.effects

/-- **So is any number of looks.** -/
theorem read_after_looks (l : Link) (s : Side) (n : Nat) :
    let looks := l.run (List.replicate n (.call s .checkRead))
    let later := looks.2.call s .read
    let now := l.call s .read
    later.1.result = now.1.result ∧
      Report.effectsAll looks.1 ++ later.1.effects = now.1.effects ∧ later.2 = now.2 := by
  induction n generalizing l with
  | zero => exact ⟨rfl, rfl, rfl⟩
  | succ n ih =>
    intro looks later now
    obtain ⟨hr, he, hl⟩ := l.read_after_look s
    obtain ⟨ihr, ihe, ihl⟩ := ih (l.call s .checkRead).2
    refine ⟨ihr.trans hr, ?_, ihl.trans hl⟩
    rw [← he, ← ihe, ← List.append_assoc]
    rfl

/-- **Looking agrees with reading,** for every end, whatever was done with it before. It finds a
frame exactly if reading would return one. A read after any number of looks answers what a read
without them would have; both ends, all queues, the mailboxes, the events passed on and the log are
the same after it, and so is all that was done. A delimiter at the head is taken by the first look
as it would be by the read: what comes of the two is the same, the handshake goes on in the same
way, the frames behind it are left, and the acknowledgment is sent, where one is due, once. -/
theorem looking_agrees (l : Link) (s : Side) (n : Nat) :
    let now := l.call s .read
    let look := l.call s .checkRead
    let looks := l.run (List.replicate n (.call s .checkRead))
    let later := looks.2.call s .read
    let p := (l.side s).pipe
    let p' := (now.2.side s).pipe
    (∃ found, look.1.result = .ok (.flag found) ∧
      (found = true ↔ ∃ f, now.1.result = .ok (.frame f))) ∧
    later.1.result = now.1.result ∧
    Report.effectsAll looks.1 ++ later.1.effects = now.1.effects ∧
    later.2 = now.2 ∧
    ∀ q f fs, p.mayRead = true → p.inbound = some q → (l.view q).visible = f :: fs →
      f.isDelimiter = true →
      look.1.effects = now.1.effects ∧ look.2 = now.2 ∧ (now.2.view q).visible = fs ∧
      (p.state = .active ∧ p'.state = .delimited ∧ Effect.commands now.1.effects = [] ∨
        p.state = .pending ∧ p'.state = .terminating ∧
          Effect.commands now.1.effects = [.pipeTermAck]) := by
  intro now look looks later p p'
  obtain ⟨hr, he, hl⟩ := l.read_after_looks s n
  refine ⟨l.checkRead_iff_read s, hr, he, hl, fun q f fs hm hi hv hf => ?_⟩
  obtain ⟨r, ht⟩ := l.took_call s .read
  have hdelimiter := ht.reacts.look_atDelimiter rfl hm hi hv hf
  rw [← ht.own, ← ht.view, ← ht.posted] at hdelimiter
  obtain ⟨t, hlook, hread, -⟩ := Turn.look_delimiter (t := l.turn s) hm hi hv hf
  have hsame : look.1.effects = now.1.effects ∧ look.2 = now.2 := by
    show (l.call s .checkRead).1.effects = (l.call s .read).1.effects ∧
      (l.call s .checkRead).2 = (l.call s .read).2
    rw [call, call, Turn.perform, Turn.perform, hlook, hread]
    exact ⟨rfl, rfl⟩
  exact ⟨hsame.1, hsame.2, hdelimiter⟩

/-- An end whose peer asked to terminate looks twice, then reads: the first look acknowledges. -/
theorem looking_agrees_at_delimiter :
    ∃ l : Link, create {} { options := {} } { options := {} } = .ok l ∧
      let l := (l.run [.call .a (.terminate true), .deliver .b]).2
      let looks := l.run (List.replicate 2 (.call .b .checkRead))
      let now := l.call .b .read
      (l.side .b).pipe.state = .pending ∧ (now.2.side .b).pipe.state = .terminating ∧
      (l.call .b .checkRead).2 = now.2 ∧ (looks.2.call .b .read).2 = now.2 ∧
      Effect.commands now.1.effects = [.pipeTermAck] := by
  have hc : create {} { options := {} } { options := {} } = .ok _ := rfl
  refine ⟨_, hc, ?_⟩
  intro l looks now
  obtain ⟨-, -, -, hlater, hdelimiter⟩ := looking_agrees l .b 2
  obtain ⟨-, hlook, -, hsignal⟩ := hdelimiter (.inbound ⟨2⟩ 0) .delimiter [] (by decide) (by decide)
    (by decide) (by decide)
  obtain ⟨hs, -⟩ | ⟨hs, hnext, hposted⟩ := hsignal
  · cases hs
  · exact ⟨hs, hnext, hlook, hlater, hposted⟩

end Link

end MessagePipe
