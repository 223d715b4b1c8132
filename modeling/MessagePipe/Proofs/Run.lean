import MessagePipe.Link
import MessagePipe.Proofs.Turn

/-!
# Runs of a pair

A `Run` starts from a fresh pair (§4.4 of the specification) and does one step after the other; its
trace keeps every step with what it reported. It is the sense in which results are about every
interleaving (§5 and §8): the two owners call, take commands and set their ends up in any order, as
long as each step `may` be done. What a side sent, read and asked for is read off the trace alone,
so that results do not depend on what the model keeps.

* `Link.Run`, `Link.OpenRun`: the runs whose steps may be done, and those in which both mailboxes
  stay open.
* `Trace.sent`, `Trace.received`, `Trace.posted`: the frames a side staged and did not take back,
  those it read, and the commands it sent. Each has a lemma for one more step (`sent_concat` and so
  on).
* `run_of_steps`: what `Link.run` computes is a run, and `Run.append` what it does after a run makes
  it a longer one.
* `Link.Turned`, `Link.Took`: the pair went on as one endpoint reacted, and a command was taken from
  those that arrived. `took_call` and `took_deliver` have it of calls and deliveries,
  `turned_process` of a command from anywhere.
* `step_cases`: every step is one of these, or changes nothing that the two ends see of each other.
* `step_cases_at`: so to one side, every step is a reaction of its own endpoint, or passes it by.

Nothing after this module opens `Link.step`: results about runs are by induction on the run, with
one of the last two for its step.

Out of scope: commands that are not taken in the order they arrived (`Proofs/Pumping`), or that were
never sent (`Proofs/Exposure`).
-/

namespace MessagePipe

/-- The frame a call staged, if it staged one. -/
def Call.accepted : Call → Except Fault Reply → List Frame
  | .write f, .ok .accepted => [f]
  | _, _ => []

/-- The frame a call obtained, if it obtained one. -/
def Call.obtained : Call → Except Fault Reply → List Frame
  | .read, .ok (.frame f) => [f]
  | _, _ => []

namespace Side

@[simp] theorem other_other (s : Side) : s.other.other = s := by
  cases s <;> rfl

theorem other_ne (s : Side) : s.other ≠ s := by
  cases s <;> decide

theorem eq_or_eq_other (s s' : Side) : s' = s ∨ s' = s.other := by
  cases s <;> cases s' <;> decide

theorem id_ne (s : Side) : s.id ≠ s.other.id := by
  cases s <;> decide

end Side

namespace Link

/-- The commands that arrived at a side and were not taken, oldest first. -/
def commands (l : Link) (s : Side) : List Command :=
  (l.side s).inbox.queued.toList.map EnvelopeOf.command

/-- What the queues of a pair hold. -/
def view (l : Link) : View :=
  l.queues.view

/-- The plan of a side. -/
def planOf (a b : Plan) : Side → Plan
  | .a => a
  | .b => b

/-! ## Runs -/

/-- Steps with what they reported, in order. -/
abbrev Trace := List (Step × Report)

/-- The runs of fresh pairs whose every step `may` be done in the state it is done in. -/
inductive Run (config : Config) (a b : Plan) (may : Link → Step → Prop) : Trace → Link → Prop where
  | fresh {l : Link} (h : create config a b = .ok l) : Run config a b may [] l
  | step {tr : Trace} {l : Link} {s : Step} (h : Run config a b may tr l) (hs : may l s) :
      Run config a b may (tr ++ [(s, (l.step s).1)]) (l.step s).2

/-- Does a step leave both mailboxes open? -/
def Step.keepsOpen : Step → Bool
  | .closeInbox _ => false
  | _ => true

/-- The runs in which both mailboxes stay open. -/
abbrev OpenRun (config : Config) (a b : Plan) : Trace → Link → Prop :=
  Run config a b fun _ s => s.keepsOpen = true

/-- A fresh pair has two endpoints made from its plans, and empty queues and mailboxes. -/
theorem eq_of_create {config : Config} {a b : Plan} {l : Link} (h : create config a b = .ok l) :
    ∃ log, l =
      { a := newEndpoint (.ofPlans config ⟨Side.a.id, Side.a.owner, a.options⟩
          ⟨Side.b.id, Side.b.owner, b.options⟩) a.sink
        b := newEndpoint (.ofPlans config ⟨Side.b.id, Side.b.owner, b.options⟩
          ⟨Side.a.id, Side.a.owner, a.options⟩) b.sink
        log } := by
  unfold create Pipe.pair at h
  cases hc : config.validate with
  | error e =>
    rw [hc] at h
    cases h
  | ok u =>
    rw [hc] at h
    cases h
    exact ⟨_, rfl⟩

/-- What every end of a fresh pair starts with. -/
structure Fresh (p : Pipe) (s : Side) : Prop where
  id : p.id = s.id
  inbound : p.inbound = some (.inbound s.id 0)
  outbound : p.outbound = some (.inbound s.other.id 0)
  generation : p.generation = 0
  inActive : p.inActive = true
  state : p.state = .active

theorem fresh_of_create {config : Config} {a b : Plan} {l : Link} (h : create config a b = .ok l)
    (s : Side) : Fresh (l.side s).pipe s := by
  obtain ⟨log, rfl⟩ := eq_of_create h
  cases s <;> exact ⟨rfl, rfl, rfl, rfl, rfl, rfl⟩

theorem receiving_of_create {config : Config} {a b : Plan} {l : Link}
    (h : create config a b = .ok l) (s : Side) : (l.side s).inbox.receiving = true := by
  obtain ⟨log, rfl⟩ := eq_of_create h
  cases s <;> rfl

/-- May all steps be done, one after the other? -/
def Permits (may : Link → Step → Prop) (l : Link) : List Step → Prop
  | [] => True
  | s :: steps => may l s ∧ Permits may (l.step s).2 steps

theorem run_cons (l : Link) (s : Step) (steps : List Step) :
    l.run (s :: steps) = ((l.step s).1 :: ((l.step s).2.run steps).1, ((l.step s).2.run steps).2) :=
  rfl

/-- What `Link.run` does after a run makes it a longer one. -/
theorem Run.append {config : Config} {a b : Plan} {may : Link → Step → Prop} {tr : Trace} {l : Link}
    (h : Run config a b may tr l) (steps : List Step) (hs : Permits may l steps) :
    Run config a b may (tr ++ steps.zip (l.run steps).1) (l.run steps).2 := by
  induction steps generalizing tr l with
  | nil =>
    rw [List.zip_nil_left, List.append_nil]
    exact h
  | cons s steps ih =>
    have := ih (h.step hs.1) hs.2
    rw [run_cons, List.zip_cons_cons, List.append_cons]
    exact this

/-- What every one of some steps keeps is so after all of them. -/
theorem run_along {P : Trace → Link → Prop} {tr : Trace} {l : Link} (steps : List Step)
    (hstep : ∀ {tr l}, ∀ step ∈ steps, P tr l →
      P (tr ++ [(step, (l.step step).1)]) (l.step step).2)
    (h : P tr l) : P (tr ++ steps.zip (l.run steps).1) (l.run steps).2 := by
  induction steps generalizing tr l with
  | nil =>
    rw [List.zip_nil_left, List.append_nil]
    exact h
  | cons s steps ih =>
    have := ih (fun step hm => hstep step (List.mem_cons_of_mem _ hm))
      (hstep s List.mem_cons_self h)
    rw [run_cons, List.zip_cons_cons, List.append_cons]
    exact this

theorem Run.trivially {config : Config} {a b : Plan} {may : Link → Step → Prop} {tr : Trace}
    {l : Link} (h : Run config a b may tr l) : Run config a b (fun _ _ => True) tr l := by
  induction h with
  | fresh h => exact .fresh h
  | step _ _ ih => exact ih.step trivial

/-- Where anything may be done, whatever is done makes a run a longer one. -/
theorem Run.exists_run {config : Config} {a b : Plan} {tr : Trace} {l : Link}
    (h : Run config a b (fun _ _ => True) tr l) (steps : List Step) :
    ∃ tr', Run config a b (fun _ _ => True) tr' (l.run steps).2 := by
  induction steps generalizing tr l with
  | nil => exact ⟨tr, h⟩
  | cons s steps ih => exact ih (h.step trivial)

/-- **What `Link.run` computes from a fresh pair is a run.** -/
theorem run_of_steps {config : Config} {a b : Plan} {may : Link → Step → Prop} {l : Link}
    (h : create config a b = .ok l) (steps : List Step) (hs : Permits may l steps) :
    Run config a b may (steps.zip (l.run steps).1) (l.run steps).2 := by
  have h₀ : Run config a b may [] l := .fresh h
  simpa using h₀.append steps hs

/-! ## What a trace tells -/

/-- The side whose owner does a step. -/
def Step.side : Step → Side
  | .call s _ | .setSink s _ | .setIdentity s _ | .deliver s | .closeInbox s => s

/-- The frames side `s` staged and did not take back, after a further step. -/
def Step.sent (s : Side) (frames : List Frame) : Step × Report → List Frame
  | (.call s' c, r) =>
    if s' = s then (frames ++ c.accepted r.result).rdrop (Effect.takenBack r.effects) else frames
  | _ => frames

/-- The frames side `s` read in one step. -/
def Step.received (s : Side) : Step × Report → List Frame
  | (.call s' c, r) => if s' = s then c.obtained r.result else []
  | _ => []

/-- The commands side `s` sent in one step. -/
def Step.posted (s : Side) (e : Step × Report) : List Command :=
  if e.1.side = s then Effect.commands e.2.effects else []

theorem Step.sent_of_ne {s : Side} {e : Step × Report} (h : e.1.side ≠ s) (frames : List Frame) :
    Step.sent s frames e = frames := by
  obtain ⟨step, r⟩ := e
  cases step with
  | call s' c => exact if_neg h
  | _ => rfl

theorem Step.received_of_ne {s : Side} {e : Step × Report} (h : e.1.side ≠ s) :
    Step.received s e = [] := by
  obtain ⟨step, r⟩ := e
  cases step with
  | call s' c => exact if_neg h
  | _ => rfl

theorem Step.sent_of_quiet {step : Step} {s : Side} (h : ∀ c, step ≠ .call s c)
    (frames : List Frame) (rep : Report) : Step.sent s frames (step, rep) = frames := by
  cases step with
  | call s' c => exact if_neg fun hs : s' = s => h c (hs ▸ rfl)
  | _ => rfl

theorem Step.received_of_quiet {step : Step} {s : Side} (h : ∀ c, step ≠ .call s c)
    (rep : Report) : Step.received s (step, rep) = [] := by
  cases step with
  | call s' c => exact if_neg fun hs : s' = s => h c (hs ▸ rfl)
  | _ => rfl

theorem Step.posted_of_ne {s : Side} {e : Step × Report} (h : e.1.side ≠ s) :
    Step.posted s e = [] :=
  if_neg h

namespace Trace

/-- The frames side `s` staged, in order, without those it took back. -/
def sent (s : Side) (tr : Trace) : List Frame :=
  tr.foldl (Step.sent s) []

/-- The frames side `s` read, in order. -/
def received (s : Side) (tr : Trace) : List Frame :=
  tr.flatMap (Step.received s)

/-- The commands side `s` sent, in order. -/
def posted (s : Side) (tr : Trace) : List Command :=
  tr.flatMap (Step.posted s)

theorem sent_concat (s : Side) (tr : Trace) (e : Step × Report) :
    sent s (tr ++ [e]) = Step.sent s (sent s tr) e := by
  simp [sent]

theorem received_concat (s : Side) (tr : Trace) (e : Step × Report) :
    received s (tr ++ [e]) = received s tr ++ Step.received s e := by
  simp [received]

theorem received_cons (s : Side) (e : Step × Report) (tr : Trace) :
    received s (e :: tr) = Step.received s e ++ received s tr :=
  List.flatMap_cons

theorem received_append (s : Side) (tr tr' : Trace) :
    received s (tr ++ tr') = received s tr ++ received s tr' :=
  List.flatMap_append

theorem posted_concat (s : Side) (tr : Trace) (e : Step × Report) :
    posted s (tr ++ [e]) = posted s tr ++ Step.posted s e := by
  simp [posted]

end Trace

/-! ## What a turn changes of a pair -/

/-- The pair `l` went on to `l'`, and `rep` was reported, as the endpoint of side `s` reacted to
`st` by `r`. -/
structure Turned (l : Link) (s : Side) (st : Stimulus) (r : Reaction) (rep : Report) (l' : Link) :
    Prop where
  reacts : Reacts (l.side s).pipe l.view st r
  result : rep.result = r.result
  posted : Effect.commands rep.effects = r.posted
  notified : Effect.events rep.effects = r.events
  takenBack : Effect.takenBack rep.effects = r.takenBack
  own : (l'.side s).pipe = r.pipe
  peer : (l'.side s.other).pipe = (l.side s.other).pipe
  view : l'.view = r.view
  outbox : l'.commands s.other =
    l.commands s.other ++ if (l.side s.other).inbox.receiving then r.posted else []
  receiving : ∀ s', (l'.side s').inbox.receiving = (l.side s').inbox.receiving
  listening : ∀ s', (l'.side s').listening = (l.side s').listening
  events : (l'.side s).events =
    (l.side s).events ++ r.events.filter (r.pipe.passes (l.side s).listening)
  unheard : (l'.side s.other).events = (l.side s.other).events

/-- A turn that was due: a command was taken from those that arrived at the side. -/
structure Took (l : Link) (s : Side) (st : Stimulus) (r : Reaction) (rep : Report) (l' : Link) :
    Prop extends Turned l s st r rep l' where
  inbox : l.commands s = st.taken ++ l'.commands s

theorem Turned.heard {l l' : Link} {s : Side} {st : Stimulus} {r : Reaction} {rep : Report}
    (h : Turned l s st r rep l') (sink : Sink) (hs : r.pipe.sink = some sink)
    (hl : (l.side s).listening = true) :
    (l'.side s).events = (l.side s).events ++ r.events.filter sink.hears := by
  have hp : r.pipe.passes (l.side s).listening = sink.hears := by
    funext e
    rw [Pipe.passes, hs, hl]
    rfl
  rw [h.events, hp]

/-- A turn that does nothing. -/
theorem settle_turn (l : Link) (s : Side) : l.settle s (l.turn s) = l := by
  cases s <;> rfl

theorem turned_settle (l : Link) (s : Side) (inbox : Mailbox) {st : Stimulus} {o : Outcome Reply}
    (h : Reacts (l.side s).pipe l.view st o.reaction)
    (hr : inbox.receiving = (l.side s).inbox.receiving) :
    Turned l s st o.reaction { result := o.result, effects := o.turn.effects }
      ((l.put s { l.side s with inbox }).settle s o.turn) where
  reacts := h
  result := rfl
  posted := rfl
  notified := rfl
  takenBack := rfl
  own := by rw [pipe_settle_self]; rfl
  peer := by rw [pipe_settle_other, side_put_other]
  view := by rw [view, queues_settle]; rfl
  outbox := by
    unfold commands
    cases hc : (l.side s.other).inbox.receiving with
    | true =>
      rw [queued_settle_other _ _ _ (by rw [side_put_other, hc]), side_put_other, List.map_append,
        List.map_map, if_pos rfl]
      exact congrArg _ (List.map_id _)
    | false =>
      rw [inbox_settle_other_of_closed _ _ _ (by rw [side_put_other, hc]), side_put_other,
        if_neg Bool.false_ne_true, List.append_nil]
  receiving s' := by
    rw [receiving_settle]
    rcases s.eq_or_eq_other s' with rfl | rfl
    · rw [side_put_self, hr]
    · rw [side_put_other]
  listening s' := by
    rw [listening_settle]
    cases s <;> cases s' <;> rfl
  events := by
    rw [events_settle_self, side_put_self]
    rfl
  unheard := by rw [events_settle_other, side_put_other]

theorem took_settle (l : Link) (s : Side) (inbox : Mailbox) {st : Stimulus} {o : Outcome Reply}
    (h : Reacts (l.side s).pipe l.view st o.reaction)
    (hq : l.commands s = st.taken ++ inbox.queued.toList.map EnvelopeOf.command)
    (hr : inbox.receiving = (l.side s).inbox.receiving) :
    Took l s st o.reaction { result := o.result, effects := o.turn.effects }
      ((l.put s { l.side s with inbox }).settle s o.turn) where
  toTurned := turned_settle l s inbox h hr
  inbox := by rw [hq, commands, inbox_settle_self, side_put_self]

theorem quiet_turn (l : Link) (s : Side) : (l.turn s).Quiet :=
  ⟨rfl, rfl, rfl⟩

/-- **A call changes a pair as one endpoint reacts.** -/
theorem took_call (l : Link) (s : Side) (c : Call) :
    ∃ r, Took l s (.call c) r (l.step (.call s c)).1 (l.step (.call s c)).2 := by
  have h := took_settle l s (l.side s).inbox (Turn.reacts_perform (l.quiet_turn s) c) rfl rfl
  rw [put_side] at h
  exact ⟨_, h⟩

/-- So does a command, wherever it comes from. -/
theorem turned_process (l : Link) (s : Side) (c : Command) :
    ∃ r, Turned l s (.command c) r (l.process s c).1 (l.process s c).2 := by
  have h := turned_settle l s (l.side s).inbox (Turn.reacts_process (l.quiet_turn s) c) rfl
  rw [put_side] at h
  exact ⟨_, h⟩

theorem receive_nil {l : Link} {s : Side} (h : l.commands s = []) :
    ∃ found, l.receive s = (found, l) ∧ ∀ e, found ≠ .envelope e := by
  have hn : (l.side s).inbox.queued.pop? = none := by
    have ht := (l.side s).inbox.queued.toList_pop?
    rw [List.map_eq_nil_iff.1 h] at ht
    simpa using ht
  unfold receive Mailbox.receive
  rw [hn]
  refine ⟨_, by dsimp only; rw [put_side], fun e he => ?_⟩
  split at he <;> cases he

theorem receive_cons {l : Link} {s : Side} {c : Command} {left : List Command}
    (h : l.commands s = c :: left) :
    ∃ e inbox, l.receive s = (.envelope e, l.put s { l.side s with inbox }) ∧ e.command = c ∧
      l.commands s = c :: inbox.queued.toList.map EnvelopeOf.command ∧
      inbox.receiving = (l.side s).inbox.receiving := by
  cases hp : (l.side s).inbox.queued.pop? with
  | none =>
    rw [commands, Chain.pop?_eq_none hp] at h
    cases h
  | some found =>
    obtain ⟨e, queued⟩ := found
    have hl := Chain.pop?_eq_some hp
    have hc : e.command = c := by
      rw [commands, hl] at h
      exact (List.cons.inj h).1
    refine ⟨e, { (l.side s).inbox with queued }, ?_, hc, by rw [commands, hl, ← hc]; rfl, rfl⟩
    unfold receive Mailbox.receive
    rw [hp]

theorem step_deliver_nil {l : Link} {s : Side} (h : l.commands s = []) :
    l.step (.deliver s) = ({}, l) := by
  obtain ⟨found, hr, hf⟩ := receive_nil h
  unfold step
  dsimp only
  rw [hr]
  cases found with
  | envelope e => exact absurd rfl (hf e)
  | nothingYet => rfl
  | ended => rfl

/-- **The oldest command that arrived is taken, and changes a pair as one endpoint reacts.** -/
theorem took_deliver {l : Link} {s : Side} {c : Command} {left : List Command}
    (h : l.commands s = c :: left) :
    ∃ r, Took l s (.command c) r (l.step (.deliver s)).1 (l.step (.deliver s)).2 := by
  obtain ⟨e, inbox, hr, hc, hq, hi⟩ := receive_cons h
  have hs : l.step (.deliver s) = (l.put s { l.side s with inbox }).process s c := by
    unfold step
    dsimp only
    rw [hr, ← hc]
  have ht : (l.put s { l.side s with inbox }).turn s = l.turn s := by
    unfold turn
    rw [side_put_self, queues_put]
  rw [hs, process, ht]
  exact ⟨_, took_settle l s inbox (Turn.reacts_process (l.quiet_turn s) c) hq hi⟩

/-! ### Setting an endpoint up -/

theorem step_setSink_of_none {l : Link} {s : Side} (h : (l.side s).pipe.sink = none) (sink : Sink) :
    l.step (.setSink s sink) = ({}, l.put s { l.side s with
      pipe := { (l.side s).pipe with sink := some sink }, listening := true }) := by
  simp only [step, setSink, Pipe.setSink, h]

theorem step_setSink_of_some {l : Link} {s : Side} {old : Sink}
    (h : (l.side s).pipe.sink = some old) (sink : Sink) :
    l.step (.setSink s sink) = ({ result := .error (.sinkTaken (l.side s).pipe.id) }, l) := by
  simp only [step, setSink, Pipe.setSink, h]

theorem step_setIdentity_of_none {l : Link} {s : Side} (h : (l.side s).pipe.identity = none)
    (identity : Identity) :
    l.step (.setIdentity s identity) = ({}, l.put s { l.side s with
      pipe := { (l.side s).pipe with identity := some identity } }) := by
  simp only [step, setIdentity, Pipe.setIdentity, h]

theorem step_setIdentity_of_some {l : Link} {s : Side} {old : Identity}
    (h : (l.side s).pipe.identity = some old) (identity : Identity) :
    l.step (.setIdentity s identity) = ({ result := .error .identityTaken }, l) := by
  simp only [step, setIdentity, Pipe.setIdentity, h]

/-- The pair `l'` has the ends and queues of `l`, but for sinks and identities that are set. -/
structure Kept (l l' : Link) : Prop where
  view : l'.view = l.view
  pipe : ∀ s, ∃ k i, (l'.side s).pipe = { (l.side s).pipe with sink := k, identity := i } ∧
    ((l.side s).pipe.sink.isSome = true → k = (l.side s).pipe.sink)
  events : ∀ s, (l'.side s).events = (l.side s).events
  listening : ∀ s, (l.side s).listening = true → (l'.side s).listening = true

theorem kept_self (l : Link) : Kept l l :=
  ⟨rfl, fun _ => ⟨_, _, rfl, fun _ => rfl⟩, fun _ => rfl, fun _ => id⟩

theorem inbox_put {l : Link} {s : Side} {e : Endpoint} (h : e.inbox = (l.side s).inbox)
    (s' : Side) : ((l.put s e).side s').inbox = (l.side s').inbox := by
  rcases s.eq_or_eq_other s' with rfl | rfl
  · rw [side_put_self, h]
  · rw [side_put_other]

theorem kept_put {l : Link} {s : Side} {e : Endpoint} {k : Option Sink} {i : Option Identity}
    (hp : e.pipe = { (l.side s).pipe with sink := k, identity := i })
    (hk : (l.side s).pipe.sink.isSome = true → k = (l.side s).pipe.sink)
    (he : e.events = (l.side s).events)
    (hl : (l.side s).listening = true → e.listening = true) : Kept l (l.put s e) := by
  refine ⟨by rw [view, queues_put]; rfl, fun s' => ?_, fun s' => ?_, fun s' => ?_⟩ <;>
    rcases s.eq_or_eq_other s' with rfl | rfl
  · rw [side_put_self]
    exact ⟨k, i, hp, hk⟩
  · rw [side_put_other]
    exact ⟨_, _, rfl, fun _ => rfl⟩
  · rw [side_put_self, he]
  · rw [side_put_other]
  · rw [side_put_self]
    exact hl
  · rw [side_put_other]
    exact id

/-- **Every step is the reaction of one endpoint, or leaves both as they are,** but for sinks,
identities, and mailboxes that are closed, and does nothing beyond. -/
theorem step_cases (l : Link) (step : Step) :
    (∃ s st r, ((∃ c, step = .call s c ∧ st = .call c) ∨ step = .deliver s ∧ ∃ c, st = .command c) ∧
        Took l s st r (l.step step).1 (l.step step).2) ∨
      (∀ s c, step ≠ .call s c) ∧ Kept l (l.step step).2 ∧ (l.step step).1.effects = [] ∧
        (step.keepsOpen = true → ∀ s, ((l.step step).2.side s).inbox = (l.side s).inbox) := by
  cases step with
  | call s c =>
    obtain ⟨r, ht⟩ := l.took_call s c
    exact .inl ⟨s, .call c, r, .inl ⟨c, rfl, rfl⟩, ht⟩
  | deliver s =>
    cases hc : l.commands s with
    | nil =>
      rw [step_deliver_nil hc]
      exact .inr ⟨by rintro _ _ ⟨⟩, l.kept_self, rfl, fun _ _ => rfl⟩
    | cons c left =>
      obtain ⟨r, ht⟩ := took_deliver hc
      exact .inl ⟨s, .command c, r, .inr ⟨rfl, c, rfl⟩, ht⟩
  | setSink s sink =>
    refine .inr ⟨by rintro _ _ ⟨⟩, ?_⟩
    cases hk : (l.side s).pipe.sink with
    | some _ =>
      rw [step_setSink_of_some hk]
      exact ⟨l.kept_self, rfl, fun _ _ => rfl⟩
    | none =>
      rw [step_setSink_of_none hk]
      exact ⟨kept_put rfl (fun h => by rw [hk] at h; cases h) rfl fun _ => rfl, rfl,
        fun _ => inbox_put rfl⟩
  | setIdentity s identity =>
    refine .inr ⟨by rintro _ _ ⟨⟩, ?_⟩
    cases hk : (l.side s).pipe.identity with
    | some _ =>
      rw [step_setIdentity_of_some hk]
      exact ⟨l.kept_self, rfl, fun _ _ => rfl⟩
    | none =>
      rw [step_setIdentity_of_none hk]
      exact ⟨kept_put rfl (fun _ => rfl) rfl id, rfl, fun _ => inbox_put rfl⟩
  | closeInbox s =>
    exact .inr ⟨by rintro _ _ ⟨⟩, kept_put rfl (fun _ => rfl) rfl id, rfl, fun hk => by cases hk⟩

theorem side_of_stimulus {s : Side} {st : Stimulus} {step : Step}
    (hst : (∃ c, step = .call s c ∧ st = .call c) ∨ step = .deliver s ∧ ∃ c, st = .command c) :
    step.side = s := by
  rcases hst with ⟨c, rfl, -⟩ | ⟨rfl, -⟩ <;> rfl

/-- A step that the pipe of side `s` has no part in, or that sets no more than its sink or its
identity. -/
structure Aside (l : Link) (s : Side) (step : Step) : Prop where
  pipe : ∃ k i, ((l.step step).2.side s).pipe = { (l.side s).pipe with sink := k, identity := i }
  quiet : ∀ c, step ≠ .call s c
  posted : Step.posted s (step, (l.step step).1) = []

/-- **To a side, every step is the reaction of its own endpoint, or passes it by.** -/
theorem step_cases_at (l : Link) (step : Step) (s : Side) :
    (∃ st r, ((∃ c, step = .call s c ∧ st = .call c) ∨ step = .deliver s ∧ ∃ c, st = .command c) ∧
        Took l s st r (l.step step).1 (l.step step).2) ∨ Aside l s step := by
  rcases l.step_cases step with ⟨s', st, r, hst, ht⟩ | ⟨hn, hk, he, -⟩
  · rcases s'.eq_or_eq_other s with rfl | rfl
    · exact .inl ⟨st, r, hst, ht⟩
    · have hne : step.side ≠ s'.other := side_of_stimulus hst ▸ s'.other_ne.symm
      exact .inr ⟨⟨_, _, ht.peer⟩, by rintro c rfl; exact hne rfl, Step.posted_of_ne hne⟩
  · obtain ⟨k, i, hp, -⟩ := hk.pipe s
    refine .inr ⟨⟨k, i, hp⟩, hn s, ?_⟩
    rw [Step.posted, he]
    exact ite_self _

/-! ### Mailboxes that stay open -/

theorem receiving_step {l : Link} {step : Step} (h : step.keepsOpen = true) (s : Side) :
    ((l.step step).2.side s).inbox.receiving = (l.side s).inbox.receiving := by
  rcases l.step_cases step with ⟨s', st, r, -, ht⟩ | ⟨-, -, -, hin⟩
  · exact ht.receiving s
  · rw [hin h]

theorem OpenRun.receiving {config : Config} {a b : Plan} {tr : Trace} {l : Link}
    (h : OpenRun config a b tr l) (s : Side) : (l.side s).inbox.receiving = true := by
  induction h with
  | fresh h => exact receiving_of_create h s
  | step h hs ih => rw [receiving_step hs, ih]

end Link

end MessagePipe
