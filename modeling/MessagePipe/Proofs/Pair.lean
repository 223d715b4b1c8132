import MessagePipe.Proofs.Run

/-!
# Pairs as their two ends see them

A `Pair` leaves out what only owners see: mailboxes that close, events that are received, and the
log. Every command that was sent is underway to the other end until it is taken there, so nothing is
ever lost: a mailbox that closes is an owner that takes no more commands. A command that could not
be delivered is treated as never delivered (§7 of the specification), and here as one that never
arrives, which comes to the same for both ends.

`Pair.Step` is one reaction of one end, and `Pair.Reached` are the pairs that fresh ones come to. An
invariant of pairs is proved for these steps alone, as a fact about `Reacts`.

* `Pair.after`: what the reaction of one end makes of a pair. The lemmas that follow say so part by
  part, for the end that reacted (`_after_self`) and for the other one.
* `Pair.Follows`: a pair goes along with a link and its trace. It has the ends and queues of the
  link, and the past that the trace tells; a mailbox that is open holds all commands underway.
* `Pair.Follows.next`: it does so through every step, by at most one step of its own. `Follows.took`
  is the case of a reaction, `Follows.closeInbox` that of a mailbox that closes.
* `Link.Run.exists_follows`: some reachable pair follows every link that a run reaches, whatever the
  run closes on its way. What holds of every reachable pair so holds of every run.

Out of scope: commands that were never sent, since a pair keeps to those underway. For an end that
is handed such commands see `Proofs/Exposure`.
-/

namespace MessagePipe

open Function (update)

/-- The frames staged and not taken back, after an endpoint reacted. -/
def Stimulus.sent (frames : List Frame) (r : Reaction) : Stimulus → List Frame
  | .call c => (frames ++ c.accepted r.result).rdrop r.takenBack
  | .command _ => frames

/-- The frames read in a reaction. -/
def Stimulus.received (r : Reaction) : Stimulus → List Frame
  | .call c => c.obtained r.result
  | .command _ => []

theorem Link.Took.received {l l' : Link} {s : Side} {st : Stimulus} {r : Reaction}
    {rep : Link.Report} {step : Link.Step} (ht : Link.Took l s st r rep l')
    (hst : (∃ c, step = .call s c ∧ st = .call c) ∨ step = .deliver s ∧ ∃ c, st = .command c) :
    Link.Step.received s (step, rep) = st.received r := by
  rcases hst with ⟨c, rfl, rfl⟩ | ⟨rfl, c, rfl⟩
  · rw [Link.Step.received, if_pos rfl, ht.result]
    rfl
  · rfl

/-- The two ends, the commands underway, the queues, and what happened so far. -/
structure Pair where
  pipe : Side → Pipe
  /-- The commands sent to a side and not taken by it, oldest first. -/
  due : Side → List Command
  view : View
  /-- The frames a side staged and did not take back. -/
  written : Side → List Frame
  /-- The frames a side read. -/
  obtained : Side → List Frame
  /-- The commands a side sent. -/
  posted : Side → List Command

namespace Pair

/-- Two ends that did nothing so far. -/
def start (pipe : Side → Pipe) : Pair where
  pipe := pipe
  due _ := []
  view _ := {}
  written _ := []
  obtained _ := []
  posted _ := []

/-- The pair after side `s` reacted to `st` by `r`, with `left` still underway to that side. -/
def after (x : Pair) (s : Side) (st : Stimulus) (r : Reaction) (left : List Command) : Pair where
  pipe := update x.pipe s r.pipe
  due := update (update x.due s left) s.other (x.due s.other ++ r.posted)
  view := r.view
  written := update x.written s (st.sent (x.written s) r)
  obtained := update x.obtained s (x.obtained s ++ st.received r)
  posted := update x.posted s (x.posted s ++ r.posted)

/-- The pair with another sink and another identity of side `s`. -/
def equip (x : Pair) (s : Side) (sink : Option Sink) (identity : Option Identity) : Pair :=
  { x with pipe := update x.pipe s { x.pipe s with sink, identity } }

/-- One end reacts, or gets a sink or an identity. -/
inductive Step (x : Pair) : Pair → Prop where
  | react {s : Side} {st : Stimulus} {r : Reaction} {left : List Command}
      (hd : x.due s = st.taken ++ left) (h : Reacts (x.pipe s) x.view st r) :
      Step x (x.after s st r left)
  | equip (s : Side) (sink : Option Sink) (identity : Option Identity) :
      Step x (x.equip s sink identity)

/-- The pairs that fresh ones come to. -/
inductive Reached (config : Config) (a b : Link.Plan) : Pair → Prop where
  | fresh {l : Link} (h : Link.create config a b = .ok l) :
      Reached config a b (start fun s => (l.side s).pipe)
  | step {x y : Pair} (h : Reached config a b x) (hs : Step x y) : Reached config a b y

/-- Either end is as it was, but for sink and identity. -/
theorem pipe_equip (x : Pair) (s : Side) (sink : Option Sink) (identity : Option Identity)
    (s' : Side) :
    ∃ k i, (x.equip s sink identity).pipe s' = { x.pipe s' with sink := k, identity := i } := by
  by_cases h : s' = s
  · subst h
    exact ⟨sink, identity, Function.update_self ..⟩
  · exact ⟨_, _, Function.update_of_ne h ..⟩

section After

variable (x : Pair) (s : Side) (st : Stimulus) (r : Reaction) (left : List Command)

@[simp] theorem pipe_after_self : (x.after s st r left).pipe s = r.pipe :=
  Function.update_self ..
@[simp] theorem pipe_after_other : (x.after s st r left).pipe s.other = x.pipe s.other :=
  Function.update_of_ne s.other_ne ..
@[simp] theorem due_after_self : (x.after s st r left).due s = left :=
  (Function.update_of_ne s.other_ne.symm ..).trans (Function.update_self ..)
@[simp] theorem due_after_other :
    (x.after s st r left).due s.other = x.due s.other ++ r.posted :=
  Function.update_self ..
@[simp] theorem view_after : (x.after s st r left).view = r.view := rfl
@[simp] theorem written_after_self :
    (x.after s st r left).written s = st.sent (x.written s) r :=
  Function.update_self ..
@[simp] theorem written_after_other : (x.after s st r left).written s.other = x.written s.other :=
  Function.update_of_ne s.other_ne ..
@[simp] theorem obtained_after_self :
    (x.after s st r left).obtained s = x.obtained s ++ st.received r :=
  Function.update_self ..
@[simp] theorem obtained_after_other :
    (x.after s st r left).obtained s.other = x.obtained s.other :=
  Function.update_of_ne s.other_ne ..
@[simp] theorem posted_after_self : (x.after s st r left).posted s = x.posted s ++ r.posted :=
  Function.update_self ..
@[simp] theorem posted_after_other : (x.after s st r left).posted s.other = x.posted s.other :=
  Function.update_of_ne s.other_ne ..

end After

/-! ## Following a link -/

/-- The pair `x` has the ends and queues of a link, and the past that a trace tells. A mailbox that
is open holds all commands underway. -/
structure Follows (tr : Link.Trace) (l : Link) (x : Pair) : Prop where
  pipe : ∀ s, x.pipe s = (l.side s).pipe
  view : x.view = l.view
  due : ∀ s, (l.side s).inbox.receiving = true → x.due s = l.commands s
  lost : ∀ s, (l.side s).inbox.receiving = false → l.commands s = []
  written : ∀ s, x.written s = tr.sent s
  obtained : ∀ s, x.obtained s = tr.received s
  posted : ∀ s, x.posted s = tr.posted s

theorem Follows.start {config : Config} {a b : Link.Plan} {l : Link}
    (h : Link.create config a b = .ok l) : Follows [] l (start fun s => (l.side s).pipe) := by
  obtain ⟨log, rfl⟩ := Link.eq_of_create h
  refine ⟨fun _ => rfl, rfl, fun s _ => ?_, fun s hs => ?_, fun _ => rfl, fun _ => rfl,
    fun _ => rfl⟩
  · cases s <;> rfl
  · cases s <;> cases hs

/-- What arrived is underway, in a mailbox that is closed nothing arrives. -/
theorem Follows.due_of_cons {tr : Link.Trace} {l : Link} {x : Pair} {s : Side} {c : Command}
    {left : List Command} (h : Follows tr l x) (hc : l.commands s = c :: left) :
    x.due s = c :: left := by
  cases hr : (l.side s).inbox.receiving with
  | true => exact (h.due s hr).trans hc
  | false => cases (h.lost s hr).symm.trans hc

/-- A pair follows a link through the reaction of one end. -/
theorem Follows.took {tr : Link.Trace} {l l' : Link} {x : Pair} {s : Side} {st : Stimulus}
    {r : Reaction} {rep : Link.Report} {step : Link.Step} (h : Follows tr l x)
    (ht : Link.Took l s st r rep l')
    (hst : (∃ c, step = .call s c ∧ st = .call c) ∨ step = .deliver s ∧ ∃ c, st = .command c) :
    ∃ left, x.due s = st.taken ++ left ∧ Reacts (x.pipe s) x.view st r ∧
      Follows (tr ++ [(step, rep)]) l' (x.after s st r left) := by
  have hr : Reacts (x.pipe s) x.view st r := by
    rw [h.pipe, h.view]
    exact ht.reacts
  -- A command is taken from a mailbox that is open, for one that was closed is empty.
  obtain ⟨left, hd, ho⟩ : ∃ left, x.due s = st.taken ++ left ∧
      ((l.side s).inbox.receiving = true → left = l'.commands s) := by
    cases hc : (l.side s).inbox.receiving with
    | true => exact ⟨_, (h.due s hc).trans ht.inbox, fun _ => rfl⟩
    | false =>
      have hn := (ht.inbox.symm.trans (h.lost s hc))
      rw [List.append_eq_nil_iff] at hn
      exact ⟨x.due s, by rw [hn.1]; rfl, fun h => by cases h⟩
  have hside : step.side = s := Link.side_of_stimulus hst
  have hne : step.side ≠ s.other := hside ▸ s.other_ne.symm
  refine ⟨left, hd, hr, ?_⟩
  constructor
  case pipe =>
    intro s'
    rcases s.eq_or_eq_other s' with rfl | rfl
    · rw [pipe_after_self, ht.own]
    · rw [pipe_after_other, ht.peer, h.pipe]
  case view => exact ht.view.symm
  case due =>
    intro s' hc
    rw [ht.receiving] at hc
    rcases s.eq_or_eq_other s' with rfl | rfl
    · rw [due_after_self, ho hc]
    · rw [due_after_other, ht.outbox, h.due _ hc, if_pos hc]
  case lost =>
    intro s' hc
    rw [ht.receiving] at hc
    rcases s.eq_or_eq_other s' with rfl | rfl
    · exact (List.append_eq_nil_iff.1 (ht.inbox.symm.trans (h.lost _ hc))).2
    · rw [ht.outbox, h.lost _ hc, hc]
      rfl
  case written =>
    intro s'
    rw [Link.Trace.sent_concat]
    rcases s.eq_or_eq_other s' with rfl | rfl
    · rw [written_after_self, h.written]
      rcases hst with ⟨c, rfl, rfl⟩ | ⟨rfl, c, rfl⟩
      · rw [Stimulus.sent, Link.Step.sent, if_pos rfl, ht.result, ht.takenBack]
      · rfl
    · rw [written_after_other, h.written, Link.Step.sent_of_ne hne]
  case obtained =>
    intro s'
    rw [Link.Trace.received_concat]
    rcases s.eq_or_eq_other s' with rfl | rfl
    · rw [obtained_after_self, h.obtained, ht.received hst]
    · rw [obtained_after_other, h.obtained, Link.Step.received_of_ne hne, List.append_nil]
  case posted =>
    intro s'
    rw [Link.Trace.posted_concat]
    rcases s.eq_or_eq_other s' with rfl | rfl
    · rw [posted_after_self, h.posted, Link.Step.posted, if_pos hside, ht.posted]
    · rw [posted_after_other, h.posted, Link.Step.posted_of_ne hne, List.append_nil]

/-- A pair follows a link through a step that sends, stages and reads nothing, and touches no queue
and no mailbox that is open. -/
theorem Follows.quiet {tr : Link.Trace} {l l' : Link} {x : Pair} {step : Link.Step}
    {rep : Link.Report} (h : Follows tr l x) {pipe : Side → Pipe}
    (hp : ∀ s, pipe s = (l'.side s).pipe) (hv : l'.view = l.view)
    (hd : ∀ s, (l'.side s).inbox.receiving = true →
      (l.side s).inbox.receiving = true ∧ l'.commands s = l.commands s)
    (hl : ∀ s, (l'.side s).inbox.receiving = false → l'.commands s = [])
    (hs : ∀ s c, step ≠ .call s c) (he : rep.effects = []) :
    Follows (tr ++ [(step, rep)]) l' { x with pipe } where
  pipe := hp
  view := by rw [hv, ← h.view]
  due s hr := by rw [(hd s hr).2, ← h.due s (hd s hr).1]
  lost := hl
  written s := by rw [Link.Trace.sent_concat, ← h.written, Link.Step.sent_of_quiet (hs s)]
  obtained s := by
    rw [Link.Trace.received_concat, ← h.obtained, Link.Step.received_of_quiet (hs s), List.append_nil]
  posted s := by
    rw [Link.Trace.posted_concat, ← h.posted, Link.Step.posted, he, Effect.commands,
      List.filterMap_nil, ite_self, List.append_nil]

/-- A step that leaves the link as it is. -/
theorem Follows.stays {tr : Link.Trace} {l : Link} {x : Pair} {step : Link.Step}
    {rep : Link.Report} (h : Follows tr l x) (hs : ∀ s c, step ≠ .call s c)
    (he : rep.effects = []) : Follows (tr ++ [(step, rep)]) l x :=
  h.quiet h.pipe rfl (fun _ hr => ⟨hr, rfl⟩) h.lost hs he

/-- A step that changes one end only, and not its mailbox. -/
theorem Follows.equip {tr : Link.Trace} {l : Link} {x : Pair} {step : Link.Step}
    {rep : Link.Report} (h : Follows tr l x) {s : Side} {e : Endpoint}
    (hi : e.inbox = (l.side s).inbox) (hs : ∀ s c, step ≠ .call s c) (he : rep.effects = []) :
    Follows (tr ++ [(step, rep)]) (l.put s e) { x with pipe := update x.pipe s e.pipe } := by
  have hin := Link.inbox_put hi
  have hc : ∀ s', (l.put s e).commands s' = l.commands s' := fun s' => by
    rw [Link.commands, hin]; rfl
  refine h.quiet (fun s' => ?_) (by rw [Link.view, Link.queues_put]; rfl)
    (fun s' hr => ⟨hin s' ▸ hr, hc s'⟩) (fun s' hr => (hc s').trans (h.lost s' (hin s' ▸ hr))) hs he
  rcases s.eq_or_eq_other s' with rfl | rfl
  · rw [Function.update_self, Link.side_put_self]
  · rw [Function.update_of_ne s.other_ne, Link.side_put_other, h.pipe]

/-- A mailbox that closes loses what it held. In the pair all of it stays underway, for good. -/
theorem Follows.closeInbox {tr : Link.Trace} {l : Link} {x : Pair} {step : Link.Step}
    {rep : Link.Report} (h : Follows tr l x) (s : Side) (hs : ∀ s c, step ≠ .call s c)
    (he : rep.effects = []) : Follows (tr ++ [(step, rep)]) (l.closeInbox s) x := by
  have hpipe : ∀ s', ((l.closeInbox s).side s').pipe = (l.side s').pipe := by
    intro s'
    unfold Link.closeInbox
    rcases s.eq_or_eq_other s' with rfl | rfl
    · rw [Link.side_put_self]
    · rw [Link.side_put_other]
  have hin : ((l.closeInbox s).side s).inbox = (l.side s).inbox.close := by
    rw [Link.closeInbox, Link.side_put_self]
  have hother : ((l.closeInbox s).side s.other).inbox = (l.side s.other).inbox := by
    rw [Link.closeInbox, Link.side_put_other]
  refine h.quiet (fun s' => (h.pipe s').trans (hpipe s').symm) ?_ (fun s' hr => ?_)
    (fun s' hr => ?_) hs he
  · rw [Link.view, Link.closeInbox, Link.queues_put]
    rfl
  · rcases s.eq_or_eq_other s' with rfl | rfl
    · rw [hin] at hr
      cases hr
    · rw [hother] at hr
      exact ⟨hr, by rw [Link.commands, hother]; rfl⟩
  · rcases s.eq_or_eq_other s' with rfl | rfl
    · rw [Link.commands, hin]
      rfl
    · rw [hother] at hr
      rw [Link.commands, hother]
      exact h.lost _ hr

/-- **A pair follows a link through every step, by at most one step of its own.** -/
theorem Follows.next {tr : Link.Trace} {l : Link} {x : Pair} (h : Follows tr l x)
    (step : Link.Step) :
    ∃ y, (y = x ∨ Step x y) ∧ Follows (tr ++ [(step, (l.step step).1)]) (l.step step).2 y := by
  cases step with
  | call s c =>
    obtain ⟨r, ht⟩ := l.took_call s c
    obtain ⟨left, hd, hr, hf⟩ := h.took ht (.inl ⟨c, rfl, rfl⟩)
    exact ⟨_, .inr (.react hd hr), hf⟩
  | deliver s =>
    cases hc : l.commands s with
    | nil =>
      rw [Link.step_deliver_nil hc]
      exact ⟨x, .inl rfl, h.stays (by rintro _ _ ⟨⟩) rfl⟩
    | cons c left =>
      obtain ⟨r, ht⟩ := Link.took_deliver hc
      obtain ⟨left, hd, hr, hf⟩ := h.took ht (.inr ⟨rfl, c, rfl⟩)
      exact ⟨_, .inr (.react hd hr), hf⟩
  | setSink s sink =>
    cases hk : (l.side s).pipe.sink with
    | some _ =>
      rw [Link.step_setSink_of_some hk]
      exact ⟨x, .inl rfl, h.stays (by rintro _ _ ⟨⟩) rfl⟩
    | none =>
      rw [Link.step_setSink_of_none hk]
      refine ⟨_, .inr ?_, h.equip rfl (by rintro _ _ ⟨⟩) rfl⟩
      rw [← h.pipe s]
      exact .equip s (some sink) (x.pipe s).identity
  | setIdentity s identity =>
    cases hk : (l.side s).pipe.identity with
    | some _ =>
      rw [Link.step_setIdentity_of_some hk]
      exact ⟨x, .inl rfl, h.stays (by rintro _ _ ⟨⟩) rfl⟩
    | none =>
      rw [Link.step_setIdentity_of_none hk]
      refine ⟨_, .inr ?_, h.equip rfl (by rintro _ _ ⟨⟩) rfl⟩
      rw [← h.pipe s]
      exact .equip s (x.pipe s).sink (some identity)
  | closeInbox s => exact ⟨x, .inl rfl, h.closeInbox s (by rintro _ _ ⟨⟩) rfl⟩

end Pair

/-- **A reachable pair follows every link that a run reaches.** -/
theorem Link.Run.exists_follows {config : Config} {a b : Link.Plan}
    {may : Link → Link.Step → Prop} {tr : Link.Trace} {l : Link}
    (h : Link.Run config a b may tr l) :
    ∃ x, Pair.Reached config a b x ∧ Pair.Follows tr l x := by
  induction h with
  | fresh h => exact ⟨_, .fresh h, .start h⟩
  | @step tr l s _ _ ih =>
    obtain ⟨x, hx, hf⟩ := ih
    obtain ⟨y, hy | hy, hf'⟩ := hf.next s
    · exact ⟨y, hy ▸ hx, hf'⟩
    · exact ⟨y, hx.step hy, hf'⟩

end MessagePipe
