import MessagePipe.Proofs.Lifecycle

/-!
# Breaches of the handshake are found before anything is done

A command that the handshake does not lead to is a fault, whatever was done with the end before and
whoever made the command up (§4.3 of the specification: any other pair of state and event is a fatal
contract violation). The end looks first: nothing is released, sent or notified, and no state is
entered, before the fault is raised. What an owner calls is no breach.

* `Turn.obey_of_breach`: where a command is a breach (`Pipe.Breach`), the turn is left as it was.
* `Link.breach_exact`: the breaches in terms of command and state, and all that comes of one. A
  request breaches in `pending`, `terminating` and `doubleTerminated`; an acknowledgment breaches in
  `active`, `delimited` and `pending`, and of an end that was taken down. A breach leaves both ends,
  both mailboxes, the queues and the events as they were, and one entry that the command was
  received.
* `Link.fault_of_call`: no call of an owner comes to a `protocolViolation`, so `terminate`, `read`,
  `check_read` and `flush` never do.
* `Link.useAll_heeded`: whatever is done with an end comes out the same without the breaches, but
  for these entries. So a program that catches the fault can go on as if nothing had been sent.

There is no premise: the link may be any, its queues may hold anything, and the command may name any
queue.

Out of scope: the two assertions about setting an endpoint up, and the delimiter that an owner
writes; these are faults of the owner and not of the handshake.
-/

namespace MessagePipe

/-! ## Where the handshake has no answer -/

/-- A second request, or one after the acknowledgment. -/
theorem State.on_peerTerm_eq_none {s : State} {d : Bool} :
    s.on (.peerTerm d) = none ↔ s = .pending ∨ s = .terminating ∨ s = .doubleTerminated := by
  cases s <;> cases d <;> decide

/-- An acknowledgment of a request that was not made. -/
theorem State.on_peerTermAck_eq_none {s : State} :
    s.on .peerTermAck = none ↔ s = .active ∨ s = .delimited ∨ s = .pending := by
  cases s <;> decide

/-- A command breaches the handshake: it asks to terminate for a second time or after all was
acknowledged, or it acknowledges what was taken down before or what was not asked for. -/
def Pipe.Breaches (p : Pipe) (c : Command) : Prop :=
  c = .pipeTerm ∧ (p.state = .pending ∨ p.state = .terminating ∨ p.state = .doubleTerminated) ∨
    c = .pipeTermAck ∧
      (p.isClosed = true ∨ p.state = .active ∨ p.state = .delimited ∨ p.state = .pending)

instance (p : Pipe) (c : Command) : Decidable (p.Breaches c) :=
  inferInstanceAs (Decidable (_ ∨ _))

/-- The breaches of the handshake, with the faults they are. -/
inductive Pipe.Breach (p : Pipe) : Command → Fault → Prop where
  | peerTerm (hon : p.state.on (.peerTerm p.delay) = none) :
      p.Breach .pipeTerm (.protocolViolation (.peerTerm p.delay) p.state)
  | twice (hc : p.isClosed = true) : p.Breach .pipeTermAck (.acknowledgedTwice p.id)
  | peerTermAck (hc : p.isClosed = false) (hon : p.state.on .peerTermAck = none) :
      p.Breach .pipeTermAck (.protocolViolation .peerTermAck p.state)

theorem Pipe.Breach.breaches {p : Pipe} {c : Command} {fault : Fault} (h : p.Breach c fault) :
    p.Breaches c := by
  cases h with
  | peerTerm hon => exact .inl ⟨rfl, State.on_peerTerm_eq_none.1 hon⟩
  | twice hc => exact .inr ⟨rfl, .inl hc⟩
  | peerTermAck hc hon => exact .inr ⟨rfl, .inr (State.on_peerTermAck_eq_none.1 hon)⟩

theorem Pipe.Breaches.exists_breach {p : Pipe} {c : Command} (h : p.Breaches c) :
    ∃ fault, p.Breach c fault := by
  rcases h with ⟨rfl, hs⟩ | ⟨rfl, hs⟩
  · exact ⟨_, .peerTerm (State.on_peerTerm_eq_none.2 hs)⟩
  · cases hc : p.isClosed with
    | true => exact ⟨_, .twice hc⟩
    | false =>
      have hs := hs.resolve_left (by simp [hc])
      exact ⟨_, .peerTermAck hc (State.on_peerTermAck_eq_none.2 hs)⟩

namespace Turn

variable {t : Turn} {c : Command}

/-- **A breach leaves the turn as it was.** -/
theorem obey_of_breach {fault : Fault} (h : t.pipe.Breach c fault) : t.obey c = t.fail fault := by
  cases h with
  | peerTerm hon =>
    rw [obey, processPipeTerm, transition_of_none t hon]
    rfl
  | twice hc =>
    rw [obey, processPipeTermAck]
    exact if_pos hc
  | peerTermAck hc hon =>
    rw [obey, processPipeTermAck, if_neg (by simp [hc]), transition_of_none t hon]
    rfl

/-- What is no breach is done. -/
theorem result_obey_of_not_breaches (h : ¬t.pipe.Breaches c) : (t.obey c).result = .ok () := by
  cases c with
  | pipeTerm =>
    cases hon : t.pipe.state.on (.peerTerm t.pipe.delay) with
    | none => exact absurd (Pipe.Breach.peerTerm hon).breaches h
    | some sa =>
      rw [obey, processPipeTerm, transition_of_on t hon]
      rfl
  | pipeTermAck =>
    cases hc : t.pipe.isClosed with
    | true => exact absurd (Pipe.Breach.twice hc).breaches h
    | false =>
      cases hon : t.pipe.state.on .peerTermAck with
      | none => exact absurd (Pipe.Breach.peerTermAck hc hon).breaches h
      | some sa =>
        rw [obey, processPipeTermAck, if_neg (by simp [hc]), transition_of_on t hon]
        rfl
  | _ => rfl

end Turn

/-- The faults of a call are those of its owner, who writes a delimiter or staged as a fragment what
is none. -/
theorem Reacts.fault_of_call {p : Pipe} {v : View} {c : Call} {r : Reaction} {fault : Fault}
    (h : Reacts p v (.call c) r) (hr : r.result = .error fault) :
    (∃ f, c = .write f ∧ fault = .delimiterWritten) ∨
      (c = .rollback ∨ ∃ d, c = .terminate d) ∧ fault = .unflaggedFragment := by
  cases h with
  | @writeDelimiter f =>
    cases hr
    exact .inl ⟨f, rfl, rfl⟩
  | rollbackFault =>
    cases hr
    exact .inr ⟨.inl rfl, rfl⟩
  | @terminateFault d =>
    cases hr
    exact .inr ⟨.inr ⟨d, rfl⟩, rfl⟩
  | _ => cases hr

namespace Link

variable {l : Link} {s : Side} {c : Command} {fault : Fault}

/-! ## What comes of a breach -/

/-- A turn that makes one entry in the log. -/
theorem settle_note (l : Link) (s : Side) (e : Entry) :
    l.settle s ((l.turn s).note e) = l.note e := by
  cases s <;> rfl

/-- **A command that is a breach changes nothing but the log.** -/
theorem process_of_breach (h : (l.side s).pipe.Breach c fault) :
    l.process s c =
      let entry : Entry := .received (l.side s).pipe.id (l.side s).pipe.peer c.name
      ({ result := .error fault, effects := [.note entry] }, l.note entry) := by
  have ho := Turn.obey_of_breach (t := (l.turn s).note
    (.received (l.side s).pipe.id (l.side s).pipe.peer c.name)) h
  unfold process
  rw [Turn.process, show (l.turn s).pipe = (l.side s).pipe from rfl, ho]
  exact Prod.ext rfl (l.settle_note s _)

/-- Where a command is obeyed without being entered in the log, a breach changes nothing. -/
theorem obey_of_breach (h : (l.side s).pipe.Breach c fault) :
    l.obey s c = ({ result := .error fault }, l) := by
  unfold obey
  rw [Turn.obey_of_breach (t := l.turn s) h]
  exact Prod.ext rfl (l.settle_turn s)

theorem result_process_of_not_breaches (h : ¬(l.side s).pipe.Breaches c) :
    (l.process s c).1.result = .ok .done := by
  have ho := Turn.result_obey_of_not_breaches (t := (l.turn s).note
    (.received (l.side s).pipe.id (l.side s).pipe.peer c.name)) h
  exact congrArg (Except.map fun _ => Reply.done) ho

/-- **The faults of taking a command are the breaches.** -/
theorem result_process_error :
    (l.process s c).1.result = .error fault ↔ (l.side s).pipe.Breach c fault := by
  constructor
  · intro h
    by_cases hb : (l.side s).pipe.Breaches c
    · obtain ⟨fault', hb⟩ := hb.exists_breach
      rw [process_of_breach hb] at h
      cases h
      exact hb
    · rw [result_process_of_not_breaches hb] at h
      cases h
  · intro h
    rw [process_of_breach h]

theorem fault_of_call {k : Call} (h : (l.call s k).1.result = .error fault) :
    (∃ f, k = .write f ∧ fault = .delimiterWritten) ∨
      (k = .rollback ∨ ∃ d, k = .terminate d) ∧ fault = .unflaggedFragment := by
  obtain ⟨r, ht⟩ := l.took_call s k
  exact ht.reacts.fault_of_call (ht.result.symm.trans h)

/-- **Breaches of the handshake are found exactly, and leave everything as it was.** This holds of
every end, whatever was done with it before. A command is a fault exactly if it asks to terminate an
end that is pending, terminating or asked from both sides, or acknowledges one that was taken down,
or that asked for nothing. The fault says which; both ends, all queues, both mailboxes and the
events passed on are as they were, and all that was added is the log's entry of the command. No call
of an owner is such a fault; looking, reading and flushing are none at all, and ending is one only
where a frame was staged as a fragment that is none. -/
theorem breach_exact (l : Link) (s : Side) :
    let p := (l.side s).pipe
    (∀ c, (∃ fault, (l.process s c).1.result = .error fault) ↔ p.Breaches c) ∧
    (∀ c fault, (l.process s c).1.result = .error fault →
      p.Breach c fault ∧
      (l.process s c).1.effects = [.note (.received p.id p.peer c.name)] ∧
      (l.process s c).2 = l.note (.received p.id p.peer c.name)) ∧
    (∀ k ∈ [.read, .checkRead, .flush], ∃ reply, (l.call s k).1.result = .ok reply) ∧
    (∀ d fault, (l.call s (.terminate d)).1.result = .error fault → fault = .unflaggedFragment) ∧
    ∀ k signal state, (l.call s k).1.result ≠ .error (.protocolViolation signal state) := by
  intro p
  refine ⟨fun c => ?_, fun c fault h => ?_, fun k hk => ?_, fun d fault h => ?_,
    fun k signal state h => ?_⟩
  · constructor
    · rintro ⟨fault, h⟩
      exact (result_process_error.1 h).breaches
    · intro h
      obtain ⟨fault, hb⟩ := h.exists_breach
      exact ⟨fault, result_process_error.2 hb⟩
  · have hb := result_process_error.1 h
    rw [process_of_breach hb]
    exact ⟨hb, rfl, rfl⟩
  · cases hr : (l.call s k).1.result with
    | ok reply => exact ⟨reply, rfl⟩
    | error fault =>
      simp only [List.mem_cons, List.not_mem_nil, or_false] at hk
      rcases fault_of_call hr with ⟨_, rfl, _⟩ | ⟨rfl | ⟨_, rfl⟩, _⟩ <;>
        rcases hk with hk | hk | hk <;> cases hk
  · rcases fault_of_call h with ⟨_, hk, _⟩ | ⟨_, hf⟩
    · cases hk
    · exact hf
  · rcases fault_of_call h with ⟨_, _, hf⟩ | ⟨_, hf⟩ <;> cases hf

/-- An end that asked to terminate is asked twice: the second time is a breach, and its outbound
queue, given up the first time, is not given up again. -/
theorem breach_exact_asked_twice :
    ∃ l : Link, create {} { options := {} } { options := {} } = .ok l ∧
      let l := ((l.call .a (.terminate true)).2.process .a .pipeTerm).2
      let p := (l.side .a).pipe
      p.Breaches .pipeTerm ∧
      (l.process .a .pipeTerm).1.result =
        .error (.protocolViolation (.peerTerm true) .doubleTerminated) ∧
      (l.process .a .pipeTerm).2 = l.note (.received p.id p.peer "pipe-term") := by
  have hc : create {} { options := {} } { options := {} } = .ok _ := rfl
  refine ⟨_, hc, ?_⟩
  intro l p
  obtain ⟨hiff, hsame, -⟩ := breach_exact l .a
  have hresult : (l.process .a .pipeTerm).1.result =
      .error (.protocolViolation (.peerTerm true) .doubleTerminated) := rfl
  exact ⟨(hiff _).1 ⟨_, hresult⟩, hresult, (hsame _ _ hresult).2.2⟩

/-! ## Histories with breaches -/

/-- The link with its log forgotten. -/
def unlogged (l : Link) : Link :=
  { l with log := .empty }

@[simp] theorem unlogged_note (l : Link) (e : Entry) : (l.note e).unlogged = l.unlogged := rfl

@[simp] theorem unlogged_unlogged (l : Link) : l.unlogged.unlogged = l.unlogged := rfl

@[simp] theorem side_unlogged (l : Link) (s : Side) : l.unlogged.side s = l.side s := by
  cases s <;> rfl

theorem unlogged_put (l : Link) (s : Side) (e : Endpoint) :
    (l.put s e).unlogged = l.unlogged.put s e := by
  cases s <;> rfl

end Link

/-- What the effects of an endpoint reach, with the log forgotten. -/
def Surroundings.unlogged (m : Surroundings) : Surroundings :=
  { m with log := .empty }

/-- What an effect comes to does not hang on the log. -/
theorem Surroundings.unlogged_apply (m : Surroundings) (p : Pipe) (e : Effect) :
    (apply p m e).unlogged = (apply p m.unlogged e).unlogged := by
  cases e with
  | note => rfl
  | post c =>
    cases h : m.mailbox.receiving <;>
      simp [apply, post, note, Mailbox.send, unlogged, h]
  | notify e =>
    cases hs : p.sink with
    | none => simp [apply, notify, note, unlogged, hs]
    | some sink =>
      cases hh : sink.hears e <;> cases hl : m.listening <;> cases hr : sink.reportsLoss <;>
        simp [apply, notify, note, unlogged, hs, hh, hl, hr]

theorem Surroundings.unlogged_applyAll (m : Surroundings) (p : Pipe) (es : List Effect) :
    (m.applyAll p es).unlogged = (m.unlogged.applyAll p es).unlogged := by
  induction es generalizing m with
  | nil => rfl
  | cons e es ih =>
    rw [applyAll_cons, applyAll_cons, ih, unlogged_apply, ← ih]

namespace Link

variable {l l' : Link} {s : Side}

theorem unlogged_settle (l : Link) (s : Side) (t : Turn) :
    (l.settle s t).unlogged = (l.unlogged.settle s t).unlogged := by
  have h := Surroundings.unlogged_applyAll
    { mailbox := (l.side s.other).inbox, listening := (l.side s).listening,
      events := (l.side s).events, log := l.log } t.pipe t.effects
  have hm := congrArg Surroundings.mailbox h
  have he := congrArg Surroundings.events h
  cases s <;> simp_all [settle, unlogged, Surroundings.unlogged, side, put, Side.other]

/-- What is done with an end comes to the same, whatever the log says. -/
theorem unlogged_use (l : Link) (s : Side) (u : Use) :
    (l.use s u).2.unlogged = (l.unlogged.use s u).2.unlogged := by
  have hturn : l.unlogged.turn s = l.turn s := by
    unfold turn
    rw [side_unlogged]
    rfl
  cases u with
  | obey c =>
    simp only [use, obey, hturn]
    exact l.unlogged_settle s _
  | occasion o =>
    cases o with
    | call c =>
      simp only [use, occur, call, hturn]
      exact l.unlogged_settle s _
    | process c =>
      simp only [use, occur, process, hturn]
      exact l.unlogged_settle s _
    | setSink sink =>
      simp only [use, occur, setSink, side_unlogged]
      split
      · rfl
      · rw [unlogged_put, unlogged_put, unlogged_unlogged]
    | setIdentity identity =>
      simp only [use, occur, setIdentity, side_unlogged]
      split
      · rfl
      · rw [unlogged_put, unlogged_put, unlogged_unlogged]
    | tamper queues => rfl

theorem unlogged_useAll (h : l.unlogged = l'.unlogged) (s : Side) (us : List Use) :
    (l.useAll s us).unlogged = (l'.useAll s us).unlogged := by
  induction us generalizing l l' with
  | nil => exact h
  | cons u us ih =>
    refine ih ?_
    rw [unlogged_use l, h, ← unlogged_use]

/-- A use makes the end take a command that is a breach. -/
def Use.Breaches (u : Use) (p : Pipe) : Prop :=
  match u with
  | .occasion (.process c) | .obey c => p.Breaches c
  | .occasion _ => False

instance (u : Use) (p : Pipe) : Decidable (u.Breaches p) :=
  match u with
  | .occasion (.process c) | .obey c => inferInstanceAs (Decidable (p.Breaches c))
  | .occasion (.call _) | .occasion (.setSink _) | .occasion (.setIdentity _)
  | .occasion (.tamper _) => inferInstanceAs (Decidable False)

/-- A use that is a breach leaves the link as it was, but for its log. -/
theorem unlogged_use_of_breaches {u : Use} (h : u.Breaches (l.side s).pipe) :
    (l.use s u).2.unlogged = l.unlogged := by
  cases u with
  | obey c =>
    obtain ⟨fault, hb⟩ := Pipe.Breaches.exists_breach h
    rw [use, obey_of_breach hb]
  | occasion o =>
    cases o with
    | process c =>
      obtain ⟨fault, hb⟩ := Pipe.Breaches.exists_breach h
      rw [use, occur, process_of_breach hb, unlogged_note]
    | _ => exact h.elim

/-- What is done with side `s`, without the breaches among it. -/
def heeded (l : Link) (s : Side) : List Use → List Use
  | [] => []
  | u :: us =>
    if u.Breaches (l.side s).pipe then (l.use s u).2.heeded s us
    else u :: (l.use s u).2.heeded s us

/-- **Whatever is done with an end comes out the same without the breaches,** but for the log. -/
theorem useAll_heeded (l : Link) (s : Side) (us : List Use) :
    (l.useAll s us).unlogged = (l.useAll s (l.heeded s us)).unlogged := by
  induction us generalizing l with
  | nil => rfl
  | cons u us ih =>
    rw [heeded]
    split
    · next h =>
      rw [useAll, ih]
      exact unlogged_useAll (unlogged_use_of_breaches h) s _
    · rw [useAll, useAll, ih]

end Link

end MessagePipe
