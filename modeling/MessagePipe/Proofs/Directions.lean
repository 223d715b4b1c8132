import MessagePipe.Proofs.Convergence
import MessagePipe.Proofs.Halves

/-!
# The two directions of a pair

The two queues of a pair have nothing to do with each other (§4.4 of the specification), and neither
do the two directions, as long as neither owner asks to terminate. What is done about a direction
(`Deed.isOf`) looks at one half of either end, the queues from one to the other, and the commands
the two halves send each other: all of that is a `Direction`. What is done about the other direction
leaves it as it is, and says nothing in it.

A `Deed` is a step with what was taken and reported. `write`, `check_write`, `flush` and `rollback`
of one end and `read`, `check_read` and `hiccup` of the other are about one direction, and so are
the deliveries of a wake-up to the reader and of a report or a notice to the writer.

* `CalmRun.steady`: what is known of both ends as long as nobody asks to terminate: both are in
  operation, no signal of the handshake is underway, and no delimiter is anywhere.
* `CalmRun.direction_of_dropped`: a step about the other direction leaves a direction alone.
* `CalmRun.within_of_isOf`, `CalmRun.within_of_not_isOf`: what is about a direction, and nothing
  else, speaks about it: it posts the commands, and notifies the events, of that direction alone.

The module is one half of the argument; `Proofs/Independence` runs the steps of one direction
without those of the other. What a single end has to do with its two halves is in `Proofs/Halves`.

Premise: open mailboxes, and no call of `terminate` at all: the handshake is where directions meet.
-/

namespace MessagePipe

namespace Link

/-! ## Deeds -/

/-- The command a step hands to a pipe, if it does. -/
def Step.taken (l : Link) : Step → Option Command
  | .deliver s => (l.commands s).head?
  | _ => none

/-- Does a step set an endpoint up? -/
def Step.equips : Step → Bool
  | .setSink .. | .setIdentity .. => true
  | _ => false

/-- Is a step neither the start of a termination nor the end of a mailbox? -/
def Step.isCalm : Step → Bool
  | .call _ (.terminate _) | .closeInbox _ => false
  | _ => true

/-- A step with all that came of it. -/
structure Deed where
  step : Step
  /-- The command that was taken. -/
  taken : Option Command
  result : Except Fault Reply
  /-- The commands sent. -/
  posted : List Command
  /-- The events notified. -/
  notified : List Event
  /-- The events the owner heard of, behind all that it heard before. -/
  heard : List Event

/-- What comes of a step. -/
def deed (l : Link) (step : Step) : Deed where
  step := step
  taken := step.taken l
  result := (l.step step).1.result
  posted := Effect.commands (l.step step).1.effects
  notified := Effect.events (l.step step).1.effects
  heard := ((l.step step).2.side step.side).events.drop (l.side step.side).events.length

@[simp] theorem deed_step (l : Link) (step : Step) : (l.deed step).step = step := rfl

/-- What comes of one step after the other. -/
def deeds (l : Link) : List Step → List Deed
  | [] => []
  | step :: steps => l.deed step :: (l.step step).2.deeds steps

namespace Deed

/-- What a pipe was made to do, if anything. -/
def stimulus? (x : Deed) : Option Stimulus :=
  match x.step, x.taken with
  | .call _ c, _ => some (.call c)
  | .deliver _, some c => some (.command c)
  | _, _ => none

/-- Is a deed about the direction in which side `d` writes? Setting an endpoint up is about both. -/
def isOf (d : Side) (x : Deed) : Bool :=
  match x.stimulus? with
  | some st => if x.step.side = d then st.writes else st.reads
  | none => x.step.equips

theorem isOf_of_some {d : Side} {x : Deed} {st : Stimulus} (h : x.stimulus? = some st) :
    x.isOf d = if x.step.side = d then st.writes else st.reads := by
  unfold isOf
  rw [h]

theorem isOf_of_none {d : Side} {x : Deed} (h : x.stimulus? = none) :
    x.isOf d = x.step.equips := by
  unfold isOf
  rw [h]

/-- Is a command about the direction in which side `d` writes? -/
def conveys (d : Side) (x : Deed) (c : Command) : Bool :=
  if x.step.side = d then c.forReader else c.forWriter

/-- The commands sent in the direction in which side `d` writes. -/
def postedIn (d : Side) (x : Deed) : List Command :=
  x.posted.filter (x.conveys d)

/-- Is an event about the direction in which side `d` writes? -/
def concerns (d : Side) (x : Deed) (e : Event) : Bool :=
  if x.step.side = d then e.ofWriter else e.ofReader

/-- The events notified about the direction in which side `d` writes. -/
def notifiedIn (d : Side) (x : Deed) : List Event :=
  x.notified.filter (x.concerns d)

/-- The events heard about the direction in which side `d` writes. -/
def heardIn (d : Side) (x : Deed) : List Event :=
  x.heard.filter (x.concerns d)

end Deed

/-! ## Runs without termination -/

variable {config : Config} {a b : Plan} {tr : Trace} {l l' : Link} {d s : Side}

/-- The runs in which nobody asks to terminate and both mailboxes stay open. -/
abbrev CalmRun (config : Config) (a b : Plan) : Trace → Link → Prop :=
  Run config a b fun _ step => step.isCalm = true

/-- Both ends are in operation, both mailboxes are open, and no command of the handshake is
underway. -/
structure Steady (l : Link) : Prop where
  id : ∀ s, (l.side s).pipe.id = s.id
  active : ∀ s, (l.side s).pipe.state = .active
  unsignalled : ∀ s, ∀ c ∈ l.commands s, c.isSignal = false
  receiving : ∀ s, (l.side s).inbox.receiving = true

theorem CalmRun.not_atDelimiter (h : CalmRun config a b tr l) (hl : Steady l) (s : Side) :
    ¬(l.side s).pipe.AtDelimiter l.view := by
  obtain ⟨x, hf, hx⟩ := h.exists_sound
  intro hd
  rw [← hf.pipe, ← hf.view] at hd
  have ht := hx.terminated_of_delimiter hd
  rw [hf.pipe, hl.active] at ht
  cases ht

/-- An end of a pair in operation reads its own queues, and feeds those of its peer. -/
theorem CalmRun.queues (h : CalmRun config a b tr l) (hl : Steady l) (s : Side) :
    (∀ q, (l.side s).pipe.Drains q → ∃ g, q = .inbound s.id g) ∧
      ∀ q st left, l.commands s = st.taken ++ left → (l.side s).pipe.Feeds st q →
        ∃ g, q = .inbound s.other.id g := by
  obtain ⟨x, hf, hx⟩ := h.exists_sound
  have hdue := hf.due s (hl.receiving s)
  have hp := hf.pipe s
  refine ⟨fun q hq => ?_, fun q st left hd hq => ?_⟩
  · rcases hq with hq | rfl
    · exact ⟨_, hx.wired.inbound s q (hp ▸ hq)⟩
    · exact ⟨_, by rw [← hp, hx.wired.id]⟩
  · rcases hq with hq | ⟨w, r, rfl, hq⟩
    · obtain ⟨g, -, rfl, -⟩ := hx.wired.outbound s q (hp ▸ hq)
      exact ⟨g, rfl⟩
    · have hhonest := hx.agrees.honest s
      rw [Pipe.Honest, hp, hl.active] at hhonest
      obtain ⟨old, hold⟩ := Option.isSome_iff_exists.1 (Option.isNone_eq_false_iff.1 hhonest)
      obtain ⟨g, n, -, rfl, rfl, -⟩ := hx.wired.of_notice (hdue.trans hd) (by rw [hp, hold])
      rcases hq with rfl | rfl <;> exact ⟨_, rfl⟩

/-- A step that makes a pipe do something changes a pair as one endpoint reacts. -/
theorem took_of_stimulus {step : Step} {st : Stimulus} (h : (l.deed step).stimulus? = some st) :
    ∃ r, Took l step.side st r (l.step step).1 (l.step step).2 := by
  cases step with
  | call s c =>
    cases h
    exact l.took_call s c
  | deliver s =>
    cases hq : l.commands s with
    | nil => simp [Deed.stimulus?, deed, Step.taken, hq] at h
    | cons c left =>
      obtain rfl : .command c = st := by simpa [Deed.stimulus?, deed, Step.taken, hq] using h
      exact took_deliver hq
  | _ => cases h

/-- What comes of a step by which an endpoint reacts. -/
theorem Took.deed_eq {step : Step} {st : Stimulus} {r : Reaction}
    (ht : Took l step.side st r (l.step step).1 (l.step step).2) :
    l.deed step = ⟨step, step.taken l, r.result, r.posted, r.events,
      r.events.filter (r.pipe.passes (l.side step.side).listening)⟩ := by
  unfold deed
  rw [ht.result, ht.posted, ht.notified, ht.events, List.drop_left]

/-- A step of a pair in operation makes one half of one end react, or nothing, or it sets an end
up. -/
theorem step_flow (hl : Steady l) {step : Step} (hc : step.isCalm = true) :
    (∃ st, (l.deed step).stimulus? = some st ∧ (st.writes = true ∨ st.reads = true)) ∨
      (l.deed step).stimulus? = none ∧ (step.equips = true ∨ l.step step = ({}, l)) := by
  cases step with
  | call s c =>
    refine .inl ⟨.call c, rfl, ?_⟩
    cases c with
    | terminate => cases hc
    | read | checkRead | hiccup => exact .inr rfl
    | write | checkWrite | flush | rollback => exact .inl rfl
  | deliver s =>
    cases hq : l.commands s with
    | nil =>
      refine .inr ⟨?_, .inr (step_deliver_nil hq)⟩
      simp [Deed.stimulus?, deed, Step.taken, hq]
    | cons c left =>
      refine .inl ⟨.command c, ?_, ?_⟩
      · simp [Deed.stimulus?, deed, Step.taken, hq]
      · exact CommandOf.forWriter_or_forReader (hl.unsignalled s c (hq ▸ List.mem_cons_self))
  | setSink => exact .inr ⟨rfl, .inl rfl⟩
  | setIdentity => exact .inr ⟨rfl, .inl rfl⟩
  | closeInbox => cases hc

/-- What is about the direction in which side `d` writes is about the writing half of `d`, or about
the reading half of its peer, or sets an end up. -/
theorem step_of_isOf (hl : Steady l) {step : Step} (hc : step.isCalm = true)
    (hd : (l.deed step).isOf d = true) :
    (∃ st, (l.deed step).stimulus? = some st ∧
        (step.side = d ∧ st.writes = true ∨ step.side.other = d ∧ st.reads = true)) ∨
      step.equips = true := by
  rcases step_flow hl hc with ⟨st, hst, -⟩ | ⟨hst, -⟩
  · rw [Deed.isOf_of_some hst, deed_step] at hd
    refine .inl ⟨st, hst, ?_⟩
    rcases step.side.eq_or_eq_other d with rfl | rfl
    · rw [if_pos rfl] at hd
      exact .inl ⟨rfl, hd⟩
    · rw [if_neg step.side.other_ne.symm] at hd
      exact .inr ⟨rfl, hd⟩
  · rw [Deed.isOf_of_none hst] at hd
    exact .inr hd

/-- What is not about a direction is about the other halves, or nothing at all. -/
theorem step_of_not_isOf (hl : Steady l) {step : Step} (hc : step.isCalm = true)
    (hd : (l.deed step).isOf d = false) :
    (∃ st, (l.deed step).stimulus? = some st ∧
        (step.side = d ∧ st.reads = true ∨ step.side.other = d ∧ st.writes = true)) ∨
      l.step step = ({}, l) := by
  rcases step_flow hl hc with ⟨st, hst, hflow⟩ | ⟨hst, hidle⟩
  · rw [Deed.isOf_of_some hst, deed_step] at hd
    refine .inl ⟨st, hst, ?_⟩
    rcases step.side.eq_or_eq_other d with rfl | rfl
    · rw [if_pos rfl] at hd
      exact .inl ⟨rfl, hflow.resolve_left (by rw [hd]; exact Bool.false_ne_true)⟩
    · rw [if_neg step.side.other_ne.symm] at hd
      exact .inr ⟨rfl, hflow.resolve_right (by rw [hd]; exact Bool.false_ne_true)⟩
  · rw [Deed.isOf_of_none hst, deed_step] at hd
    exact .inr (hidle.resolve_left (by rw [hd]; exact Bool.false_ne_true))

/-- Setting an end up does nothing beyond, and touches no mailbox. -/
theorem step_equips {step : Step} (h : step.equips = true) :
    (l.step step).1.effects = [] ∧ Kept l (l.step step).2 ∧
      ∀ s, ((l.step step).2.side s).inbox = (l.side s).inbox := by
  rcases l.step_cases step with ⟨_, _, _, ⟨_, rfl, -⟩ | ⟨rfl, -⟩, -⟩ | ⟨-, hk, he, hi⟩
  · cases h
  · cases h
  · refine ⟨he, hk, hi ?_⟩
    cases step with
    | setSink | setIdentity => rfl
    | _ => cases h

/-- Nobody hears of an end that is set up. -/
theorem deed_equips {step : Step} (he : step.equips = true) :
    l.deed step = ⟨step, none, (l.step step).1.result, [], [], []⟩ := by
  obtain ⟨heffects, hk, -⟩ := step_equips (l := l) he
  have htaken : step.taken l = none := by
    cases step with
    | setSink | setIdentity => rfl
    | _ => cases he
  unfold deed
  rw [heffects, hk.events, List.drop_length, htaken]
  rfl

/-- What comes of a stimulus about either half, in a pair in operation. -/
theorem CalmRun.flows (h : CalmRun config a b tr l) (hl : Steady l) {st : Stimulus} {r : Reaction}
    (hr : Reacts (l.side s).pipe l.view st r) :
    (st.writes = true → r.Writes (l.side s).pipe l.view st) ∧
      (st.reads = true → r.Reads (l.side s).pipe l.view) :=
  ⟨fun hst => hr.of_writes hst, fun hst => hr.of_reads hst (h.not_atDelimiter hl s)⟩

theorem Took.steady {st : Stimulus} {r : Reaction} {rep : Report} (ht : Took l s st r rep l')
    (hl : Steady l) (hs : r.pipe.state = (l.side s).pipe.state)
    (hp : ∀ c ∈ r.posted, c.isSignal = false) : Steady l' where
  id s' := by
    rcases s.eq_or_eq_other s' with rfl | rfl
    · rw [ht.own, ht.reacts.id, hl.id]
    · rw [ht.peer, hl.id]
  active s' := by
    rcases s.eq_or_eq_other s' with rfl | rfl
    · rw [ht.own, hs, hl.active]
    · rw [ht.peer, hl.active]
  unsignalled s' c hc := by
    rcases s.eq_or_eq_other s' with rfl | rfl
    · exact hl.unsignalled s' c (ht.inbox ▸ List.mem_append_right _ hc)
    · rw [ht.outbox, if_pos (hl.receiving _)] at hc
      rcases List.mem_append.1 hc with hc | hc
      · exact hl.unsignalled _ c hc
      · exact hp c hc
  receiving s' := (ht.receiving s').trans (hl.receiving s')

theorem Kept.steady (hk : Kept l l') (hl : Steady l)
    (hi : ∀ s, (l'.side s).inbox = (l.side s).inbox) : Steady l' := by
  refine ⟨fun s => ?_, fun s => ?_, fun s => ?_, fun s => ?_⟩
  · obtain ⟨k, i, hp, -⟩ := hk.pipe s
    rw [hp]
    exact hl.id s
  · obtain ⟨k, i, hp, -⟩ := hk.pipe s
    rw [hp]
    exact hl.active s
  · rw [commands, hi]
    exact hl.unsignalled s
  · rw [hi]
    exact hl.receiving s

/-- **A pair stays in operation.** -/
theorem CalmRun.steady (h : CalmRun config a b tr l) : Steady l := by
  induction h with
  | fresh h =>
    obtain ⟨log, rfl⟩ := eq_of_create h
    constructor
    case id => exact fun s => by cases s <;> rfl
    case active => exact fun s => by cases s <;> rfl
    case unsignalled => exact fun s c hc => by cases s <;> cases hc
    case receiving => exact fun s => by cases s <;> rfl
  | @step tr l step h hc ih =>
    rcases step_flow ih hc with ⟨st, hst, hflow⟩ | ⟨-, he | he⟩
    · obtain ⟨r, ht⟩ := took_of_stimulus hst
      obtain ⟨hwrites, hreads⟩ := CalmRun.flows h ih ht.reacts
      rcases hflow with hst | hst
      · have hw := hwrites hst
        exact ht.steady ih hw.state fun c hc => CommandOf.isSignal_of_forReader (hw.posted c hc)
      · have hr := hreads hst
        exact ht.steady ih hr.state fun c hc => CommandOf.isSignal_of_forWriter (hr.posted c hc)
    · obtain ⟨-, hk, hi⟩ := step_equips he
      exact hk.steady ih hi
    · rw [he]
      exact ih

/-! ## One direction -/

/-- All there is of the direction in which one side writes, and how the ends are equipped. -/
structure Direction where
  writing : Writing
  reading : Reading
  /-- What the queues of the reader hold, by generation. -/
  queue : Nat → Segments Frame
  /-- The commands underway to the writer. -/
  dueWriter : List Command
  /-- The commands underway to the reader. -/
  dueReader : List Command
  sink : Side → Option Sink
  identity : Side → Option Identity
  listening : Side → Bool

/-- The direction in which side `d` writes. -/
def direction (l : Link) (d : Side) : Direction where
  writing := (l.side d).pipe.writing
  reading := (l.side d.other).pipe.reading
  queue g := l.view (.inbound d.other.id g)
  dueWriter := (l.commands d).filter CommandOf.forWriter
  dueReader := (l.commands d.other).filter CommandOf.forReader
  sink s := (l.side s).pipe.sink
  identity s := (l.side s).pipe.identity
  listening s := (l.side s).listening

theorem Took.sink {st : Stimulus} {r : Reaction} {rep : Report} (ht : Took l s st r rep l')
    (s' : Side) : (l'.side s').pipe.sink = (l.side s').pipe.sink := by
  rcases s.eq_or_eq_other s' with rfl | rfl
  · rw [ht.own, ht.reacts.sink]
  · rw [ht.peer]

theorem Took.identity {st : Stimulus} {r : Reaction} {rep : Report} (ht : Took l s st r rep l')
    (s' : Side) : (l'.side s').pipe.identity = (l.side s').pipe.identity := by
  rcases s.eq_or_eq_other s' with rfl | rfl
  · rw [ht.own, ht.reacts.identity]
  · rw [ht.peer]

theorem filter_eq_nil_of_all {α : Type} {k k' : α → Bool} {xs : List α}
    (h : ∀ x ∈ xs, k x = true) (hk : ∀ {x}, k x = true → k' x = false) : xs.filter k' = [] :=
  List.filter_eq_nil_iff.2 fun x hx => by rw [hk (h x hx)]; exact Bool.false_ne_true

/-- What is about the reading half of a side leaves the direction alone in which it writes. -/
theorem CalmRun.direction_eq_of_reads (h : CalmRun config a b tr l) (hl : Steady l) {st : Stimulus}
    {r : Reaction} {rep : Report} (hst : st.reads = true) (ht : Took l s st r rep l') :
    l'.direction s = l.direction s := by
  have hr := (h.flows hl ht.reacts).2 hst
  have hq := (h.queues hl s).1
  unfold direction
  congr 1
  · rw [ht.own, hr.writing]
  · rw [ht.peer]
  · funext g
    rw [ht.view]
    refine hr.view _ fun hd => ?_
    obtain ⟨g', he⟩ := hq _ hd
    exact Pair.inbound_ne s g' g he.symm
  · rw [ht.inbox, List.filter_append, filter_eq_nil_of_all (Stimulus.forReader_of_taken hst)
      CommandOf.forWriter_of_forReader, List.nil_append]
  · rw [ht.outbox, if_pos (hl.receiving _), List.filter_append,
      filter_eq_nil_of_all hr.posted CommandOf.forReader_of_forWriter, List.append_nil]
  · exact funext ht.sink
  · exact funext ht.identity
  · exact funext ht.listening

/-- What is about the writing half of a side leaves the direction alone in which it reads. -/
theorem CalmRun.direction_eq_of_writes (h : CalmRun config a b tr l) (hl : Steady l) {st : Stimulus}
    {r : Reaction} {rep : Report} (hst : st.writes = true) (ht : Took l s st r rep l') :
    l'.direction s.other = l.direction s.other := by
  have hw := (h.flows hl ht.reacts).1 hst
  have hq := fun q => (h.queues hl s).2 q st _ ht.inbox
  unfold direction
  rw [Side.other_other]
  congr 1
  · rw [ht.peer]
  · rw [ht.own, hw.reading]
  · funext g
    rw [ht.view]
    refine hw.view _ fun hd => ?_
    obtain ⟨g', he⟩ := hq _ hd
    exact Pair.inbound_ne s g g' he
  · rw [ht.outbox, if_pos (hl.receiving _), List.filter_append,
      filter_eq_nil_of_all hw.posted CommandOf.forWriter_of_forReader, List.append_nil]
  · rw [ht.inbox, List.filter_append, filter_eq_nil_of_all (Stimulus.forWriter_of_taken hst)
      CommandOf.forReader_of_forWriter, List.nil_append]
  · exact funext ht.sink
  · exact funext ht.identity
  · exact funext ht.listening

/-- **A step that is not about a direction leaves it alone.** -/
theorem CalmRun.direction_of_dropped (h : CalmRun config a b tr l) {step : Step}
    (hc : step.isCalm = true) (hd : (l.deed step).isOf d = false) :
    (l.step step).2.direction d = l.direction d := by
  have hl := CalmRun.steady h
  rcases step_of_not_isOf hl hc hd with ⟨st, hst, hside⟩ | he
  · obtain ⟨r, ht⟩ := took_of_stimulus hst
    rcases hside with ⟨rfl, hreads⟩ | ⟨rfl, hwrites⟩
    · exact h.direction_eq_of_reads hl hreads ht
    · exact h.direction_eq_of_writes hl hwrites ht
  · rw [he]

/-! ## What is said in one direction -/

/-- All that a deed says is about the direction in which side `d` writes. -/
structure Deed.Within (d : Side) (x : Deed) : Prop where
  posted : ∀ c ∈ x.posted, x.conveys d c = true
  notified : ∀ e ∈ x.notified, x.concerns d e = true
  heard : ∀ e ∈ x.heard, x.concerns d e = true

theorem Deed.conveys_other {x : Deed} {c : Command} (h : x.conveys d.other c = true) :
    x.conveys d c = false := by
  unfold conveys at h ⊢
  rcases d.eq_or_eq_other x.step.side with he | he
  · rw [he, if_neg d.other_ne.symm] at h
    rw [he, if_pos rfl]
    exact CommandOf.forReader_of_forWriter h
  · rw [he, if_pos rfl] at h
    rw [he, if_neg d.other_ne]
    exact CommandOf.forWriter_of_forReader h

theorem Deed.concerns_other {x : Deed} {e : Event} (h : x.concerns d.other e = true) :
    x.concerns d e = false := by
  unfold concerns at h ⊢
  rcases d.eq_or_eq_other x.step.side with he | he
  · rw [he, if_neg d.other_ne.symm] at h
    rw [he, if_pos rfl]
    exact Event.ofWriter_of_ofReader h
  · rw [he, if_pos rfl] at h
    rw [he, if_neg d.other_ne]
    exact Event.ofReader_of_ofWriter h

theorem Deed.Within.said {x : Deed} (h : x.Within d) :
    x.postedIn d = x.posted ∧ x.notifiedIn d = x.notified ∧ x.heardIn d = x.heard :=
  ⟨List.filter_eq_self.2 h.posted, List.filter_eq_self.2 h.notified, List.filter_eq_self.2 h.heard⟩

theorem Deed.Within.unsaid {x : Deed} (h : x.Within d.other) :
    x.postedIn d = [] ∧ x.notifiedIn d = [] ∧ x.heardIn d = [] :=
  ⟨filter_eq_nil_of_all h.posted Deed.conveys_other,
    filter_eq_nil_of_all h.notified Deed.concerns_other,
    filter_eq_nil_of_all h.heard Deed.concerns_other⟩

/-- What is about the writing half of a side only speaks about the direction in which it writes. -/
theorem Took.within_of_writes {step : Step} {st : Stimulus} {r : Reaction}
    (ht : Took l step.side st r (l.step step).1 (l.step step).2)
    (hw : r.Writes (l.side step.side).pipe l.view st) : (l.deed step).Within step.side := by
  rw [ht.deed_eq]
  refine ⟨fun c hc => ?_, fun e he => ?_, fun e he => ?_⟩
  · rw [Deed.conveys, if_pos rfl]
    exact hw.posted c hc
  · rw [Deed.concerns, if_pos rfl]
    exact hw.events e he
  · rw [Deed.concerns, if_pos rfl]
    exact hw.events e (List.mem_of_mem_filter he)

/-- What is about the reading half of a side only speaks about the direction in which it reads. -/
theorem Took.within_of_reads {step : Step} {st : Stimulus} {r : Reaction}
    (ht : Took l step.side st r (l.step step).1 (l.step step).2)
    (hr : r.Reads (l.side step.side).pipe l.view) : (l.deed step).Within step.side.other := by
  have hne : step.side ≠ step.side.other := step.side.other_ne.symm
  rw [ht.deed_eq]
  refine ⟨fun c hc => ?_, fun e he => ?_, fun e he => ?_⟩
  · rw [Deed.conveys, if_neg hne]
    exact hr.posted c hc
  · rw [Deed.concerns, if_neg hne]
    exact hr.events e he
  · rw [Deed.concerns, if_neg hne]
    exact hr.events e (List.mem_of_mem_filter he)

/-- **What is about a direction only speaks about it.** -/
theorem CalmRun.within_of_isOf (h : CalmRun config a b tr l) {step : Step}
    (hc : step.isCalm = true) (hd : (l.deed step).isOf d = true) : (l.deed step).Within d := by
  have hl := CalmRun.steady h
  rcases step_of_isOf hl hc hd with ⟨st, hst, hside⟩ | he
  · obtain ⟨r, ht⟩ := took_of_stimulus hst
    rcases hside with ⟨rfl, hwrites⟩ | ⟨rfl, hreads⟩
    · exact ht.within_of_writes ((h.flows hl ht.reacts).1 hwrites)
    · exact ht.within_of_reads ((h.flows hl ht.reacts).2 hreads)
  · rw [deed_equips he]
    exact ⟨nofun, nofun, nofun⟩

/-- What is not about a direction only speaks about the other one. -/
theorem CalmRun.within_of_not_isOf (h : CalmRun config a b tr l) {step : Step}
    (hc : step.isCalm = true) (hd : (l.deed step).isOf d = false) :
    (l.deed step).Within d.other := by
  have hl := CalmRun.steady h
  rcases step_of_not_isOf hl hc hd with ⟨st, hst, hside⟩ | he
  · obtain ⟨r, ht⟩ := took_of_stimulus hst
    rcases hside with ⟨rfl, hreads⟩ | ⟨rfl, hwrites⟩
    · exact ht.within_of_reads ((h.flows hl ht.reacts).2 hreads)
    · rw [Side.other_other]
      exact ht.within_of_writes ((h.flows hl ht.reacts).1 hwrites)
  · unfold deed
    rw [he, List.drop_length]
    exact ⟨nofun, nofun, nofun⟩

end Link

end MessagePipe
