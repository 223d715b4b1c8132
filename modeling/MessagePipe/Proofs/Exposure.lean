import MessagePipe.Proofs.Run

/-!
# One end of a pair, whatever the others do

Some promises of a pipe rest on its own guards and not on what its peer does (§7 of the
specification: an invalid pair of state and event is a fatal contract violation, and nothing else
is). An end can be used by an owner who hands it any command at any time, also one that was never
sent, while anything is written to and read from the queues behind its back. `Exposed` are the pairs
that fresh ones come to in this way, with nothing known of the other end but that its owner's
mailbox is open. What holds of all of them rests on the guards of the one end alone.

An `Occasion` is one thing that happens: a call of the owner, a command from anywhere, a sink or an
identity that is set, or the queues come to hold anything at all. A fault is reported and the
history goes on, as for an owner that catches it.

* `occur_cases`: whatever happens is a reaction of the end, or touches neither its state nor what it
  sent.
* `exposed_of_occasions`: what `undergo` computes is such a pair.

It is used in `Proofs/SignOff` (what an end sends about its termination). Two other kinds of
histories go less far: `Link.use` (`Proofs/Lifecycle`) leaves the queues to the two ends, and
`Link.befall` (`Proofs/Progress`) lets both ends be used in this way.

Out of scope: a peer's mailbox that closes, with which commands would be sent and not arrive.
-/

namespace MessagePipe.Link

/-- What can happen to one side of a pair. -/
inductive Occasion where
  /-- Its owner calls the pipe. -/
  | call (call : Call)
  /-- It is handed a command, whoever made it up. -/
  | process (command : Command)
  /-- Its owner registers an event sink. -/
  | setSink (sink : Sink)
  /-- Its owner attaches an identity. -/
  | setIdentity (identity : Identity)
  /-- The queues come to hold anything. -/
  | tamper (queues : Queues)

/-- One thing happens to side `s`. -/
def occur (l : Link) (s : Side) : Occasion → Report × Link
  | .call c => l.call s c
  | .process c => l.process s c
  | .setSink sink => l.setSink s sink
  | .setIdentity identity => l.setIdentity s identity
  | .tamper queues => ({}, { l with queues })

/-- One thing after the other happens to side `s`. -/
def undergo (l : Link) (s : Side) : List Occasion → List Report × Link
  | [] => ([], l)
  | o :: os =>
    let (report, l) := l.occur s o
    let (reports, l) := l.undergo s os
    (report :: reports, l)

/-- The pairs that fresh ones come to as things happen to side `s`, with what was reported. -/
inductive Exposed (config : Config) (a b : Plan) (s : Side) :
    List (Occasion × Report) → Link → Prop where
  | fresh {l : Link} (h : create config a b = .ok l) : Exposed config a b s [] l
  | occur {tr : List (Occasion × Report)} {l : Link} (h : Exposed config a b s tr l)
      (o : Occasion) : Exposed config a b s (tr ++ [(o, (l.occur s o).1)]) (l.occur s o).2

variable {config : Config} {a b : Plan} {s : Side} {tr : List (Occasion × Report)} {l : Link}

theorem Exposed.append (h : Exposed config a b s tr l) (os : List Occasion) :
    Exposed config a b s (tr ++ os.zip (l.undergo s os).1) (l.undergo s os).2 := by
  induction os generalizing tr l with
  | nil =>
    rw [List.zip_nil_left, List.append_nil]
    exact h
  | cons o os ih =>
    have := ih (h.occur o)
    rw [show l.undergo s (o :: os) = ((l.occur s o).1 :: ((l.occur s o).2.undergo s os).1,
        ((l.occur s o).2.undergo s os).2) from rfl, List.zip_cons_cons, List.append_cons]
    exact this

/-- **What `Link.undergo` computes from a fresh pair is exposed.** -/
theorem exposed_of_occasions (h : create config a b = .ok l) (s : Side) (os : List Occasion) :
    Exposed config a b s (os.zip (l.undergo s os).1) (l.undergo s os).2 := by
  have h₀ : Exposed config a b s [] l := .fresh h
  simpa using h₀.append os

/-- Side `s` is as it was, but for a sink or an identity that was set, and did nothing. -/
structure Untouched (l : Link) (s : Side) (rep : Report) (l' : Link) : Prop where
  effects : rep.effects = []
  pipe : ∃ k i, (l'.side s).pipe = { (l.side s).pipe with sink := k, identity := i } ∧
    ((l.side s).pipe.sink.isSome = true → k = (l.side s).pipe.sink)
  events : (l'.side s).events = (l.side s).events
  listening : (l.side s).listening = true → (l'.side s).listening = true
  inbox : ∀ s', (l'.side s').inbox = (l.side s').inbox

theorem Untouched.of_kept {l' : Link} {rep : Report} (h : Kept l l') (he : rep.effects = [])
    (hi : ∀ s', (l'.side s').inbox = (l.side s').inbox) (s : Side) : Untouched l s rep l' :=
  ⟨he, h.pipe s, h.events s, h.listening s, hi⟩

/-- **Whatever happens to a side is a reaction of its pipe, or leaves the side untouched.** -/
theorem occur_cases (l : Link) (s : Side) (o : Occasion) :
    (∃ st r, Turned l s st r (l.occur s o).1 (l.occur s o).2) ∨
      Untouched l s (l.occur s o).1 (l.occur s o).2 := by
  cases o with
  | call c =>
    obtain ⟨r, ht⟩ := l.took_call s c
    exact .inl ⟨_, r, ht.toTurned⟩
  | process c =>
    obtain ⟨r, ht⟩ := l.turned_process s c
    exact .inl ⟨_, r, ht⟩
  | setSink sink =>
    rcases l.step_cases (.setSink s sink) with ⟨_, _, _, ⟨_, h, -⟩ | ⟨h, -⟩, -⟩ | ⟨-, hk, he, hi⟩
    · cases h
    · cases h
    · exact .inr (.of_kept hk he (hi rfl) s)
  | setIdentity identity =>
    rcases l.step_cases (.setIdentity s identity) with
      ⟨_, _, _, ⟨_, h, -⟩ | ⟨h, -⟩, -⟩ | ⟨-, hk, he, hi⟩
    · cases h
    · cases h
    · exact .inr (.of_kept hk he (hi rfl) s)
  | tamper queues =>
    have hside : ∀ s', (l.occur s (.tamper queues)).2.side s' = l.side s' := fun s' => by
      cases s' <;> rfl
    exact .inr ⟨rfl, ⟨_, _, congrArg Endpoint.pipe (hside s), fun _ => rfl⟩,
      congrArg Endpoint.events (hside s), fun h => (hside s).symm ▸ h,
      fun s' => congrArg Endpoint.inbox (hside s')⟩

end MessagePipe.Link
