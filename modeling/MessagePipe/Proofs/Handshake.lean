import MessagePipe.Proofs.Pair

/-!
# The two ends agree on how far termination has come

What the handshake knows of an end is its `Stance`: the state, whether it was taken down, whether it
asked to terminate, and the commands of the handshake that are underway to it. `Meets` lists the
stances of two ends that can meet, eleven in all up to the order of the ends (`Meet`); every signal
leads from one such pair of stances to another (`Meet.on`). It is the product of two of the state
machines of §4.3 of the specification with the two mailboxes between them, without anything that can
not be reached.

* `Meet.isSome_of_term`: what the peer sent never arrives where `State.on` has no entry.
* `Meet.of_ack`, `Meet.of_readable`: what an acknowledgment on its way, and an end that still reads,
  say of the other end. `Meet.of_idle` and `Meet.of_closed`: what is left once nothing is underway,
  and once an end is taken down.
* `Reacts.signals`: what a reaction of an end is to its stance: silent, or one signal with the
  action the table has for it.
* `Agrees.react`: the ends of a pair keep agreeing, as long as a delimiter is read only of a peer
  that asked to terminate. That condition is a fact about the data queue, and discharged in
  `Proofs/Stream`.

A command that is lost with a mailbox stays underway in a stance, so the list serves for runs in
which mailboxes close as well.

Out of scope: commands of flow control, which the handshake does not look at.
-/

namespace MessagePipe

open Function (update)

/-- Is a command part of the handshake? -/
def CommandOf.isSignal {E : Type} : CommandOf E → Bool
  | pipeTerm | pipeTermAck => true
  | _ => false

/-- The commands of the handshake a signal takes from those underway. -/
def Signal.taken : Signal → List Command
  | .peerTerm _ => [.pipeTerm]
  | .peerTermAck => [.pipeTermAck]
  | _ => []

/-- Is the outbound queue given up? -/
def State.hasReleased : State → Bool
  | terminating | doubleTerminated => true
  | _ => false

/-! ## Stances -/

/-- What the handshake knows of an end. -/
structure Stance where
  state : State
  /-- Was it taken down? -/
  closed : Bool := false
  /-- Did it ask to terminate? -/
  asked : Bool := false
  /-- The commands of the handshake underway to it. -/
  due : List Command := []

/-- The stance after a signal, with the commands `left` still underway. -/
def Stance.on (x : Stance) (sg : Signal) (s : State) (a : Action) (left : List Command) :
    Stance where
  state := s
  closed := x.closed || sg == .peerTermAck
  asked := x.asked || decide (.pipeTerm ∈ a.commands)
  due := left

/-- The stances of two ends that can meet, the one that asked to terminate first. -/
inductive Meets : Stance → Stance → Prop where
  | fresh : Meets { state := .active } { state := .active }
  | asked {s : State} (hs : s = .active ∨ s = .delimited) :
      Meets { state := .terminated, asked := true } { state := s, due := [.pipeTerm] }
  | pending : Meets { state := .terminated, asked := true } { state := .pending }
  | answered :
      Meets { state := .terminated, asked := true, due := [.pipeTermAck] } { state := .terminating }
  | closing :
      Meets { state := .terminating, closed := true, asked := true }
        { state := .terminating, due := [.pipeTermAck] }
  | closed :
      Meets { state := .terminating, closed := true, asked := true }
        { state := .terminating, closed := true }
  | bothAsked :
      Meets { state := .terminated, asked := true, due := [.pipeTerm] }
        { state := .terminated, asked := true, due := [.pipeTerm] }
  | oneAnswered :
      Meets { state := .terminated, asked := true, due := [.pipeTerm, .pipeTermAck] }
        { state := .doubleTerminated, asked := true }
  | bothAnswered :
      Meets { state := .doubleTerminated, asked := true, due := [.pipeTermAck] }
        { state := .doubleTerminated, asked := true, due := [.pipeTermAck] }
  | oneClosed :
      Meets { state := .doubleTerminated, asked := true, due := [.pipeTermAck] }
        { state := .doubleTerminated, closed := true, asked := true }
  | bothClosed :
      Meets { state := .doubleTerminated, closed := true, asked := true }
        { state := .doubleTerminated, closed := true, asked := true }

/-- The stances of two ends that can meet, in either order. -/
def Meet (x y : Stance) : Prop :=
  Meets x y ∨ Meets y x

theorem Meet.symm {x y : Stance} (h : Meet x y) : Meet y x :=
  Or.symm h

namespace Meet

variable {x y : Stance} {s : State} {a : Action} {left : List Command}

/-! ### Signals -/

theorem on_terminate {d : Bool} (h : Meet x y) (hon : x.state.on (.terminate d) = some (s, a)) :
    Meet (x.on (.terminate d) s a x.due) { y with due := y.due ++ a.commands } := by
  rcases h with h | h
  · cases h with
    | fresh => cases hon; exact .inl (.asked (.inl rfl))
    | asked hs => cases hon; exact .inl (.asked hs)
    | pending => cases hon; exact .inl .pending
    | answered => cases hon; exact .inl .answered
    | closing => cases hon; exact .inl .closing
    | closed => cases hon; exact .inl .closed
    | bothAsked => cases hon; exact .inl .bothAsked
    | oneAnswered => cases hon; exact .inl .oneAnswered
    | bothAnswered => cases hon; exact .inl .bothAnswered
    | oneClosed => cases hon; exact .inl .oneClosed
    | bothClosed => cases hon; exact .inl .bothClosed
  · cases h with
    | fresh => cases hon; exact .inl (.asked (.inl rfl))
    | asked hs => rcases hs with rfl | rfl <;> cases hon <;> exact .inl .bothAsked
    | pending =>
      cases d with
      | true => cases hon; exact .inr .pending
      | false => cases hon; exact .inr .answered
    | answered => cases hon; exact .inr .answered
    | closing => cases hon; exact .inr .closing
    | closed => cases hon; exact .inr .closed
    | bothAsked => cases hon; exact .inr .bothAsked
    | oneAnswered => cases hon; exact .inr .oneAnswered
    | bothAnswered => cases hon; exact .inr .bothAnswered
    | oneClosed => cases hon; exact .inr .oneClosed
    | bothClosed => cases hon; exact .inr .bothClosed

theorem on_delimiterRead (h : Meet x y) (hon : x.state.on .delimiterRead = some (s, a))
    (hy : y.state = .terminated) :
    Meet (x.on .delimiterRead s a x.due) { y with due := y.due ++ a.commands } := by
  rcases h with h | h
  · cases h with
    | fresh => cases hy
    | asked hs => rcases hs with rfl | rfl <;> cases hy
    | _ => cases hon
  · cases h with
    | fresh => cases hy
    | asked hs =>
      rcases hs with rfl | rfl
      · cases hon; exact .inr (.asked (.inr rfl))
      · cases hon
    | pending => cases hon; exact .inr .answered
    | _ => cases hon

theorem on_peerTerm {d : Bool} (h : Meet x y) (hd : x.due = .pipeTerm :: left)
    (hon : x.state.on (.peerTerm d) = some (s, a)) :
    Meet (x.on (.peerTerm d) s a left) { y with due := y.due ++ a.commands } := by
  rcases h with h | h
  · cases h with
    | bothAsked => cases hd; cases hon; exact .inr .oneAnswered
    | oneAnswered => cases hd; cases hon; exact .inl .bothAnswered
    | _ => cases hd
  · cases h with
    | asked hs =>
      cases hd
      rcases hs with rfl | rfl
      · cases d with
        | true => cases hon; exact .inr .pending
        | false => cases hon; exact .inr .answered
      · cases hon; exact .inr .answered
    | bothAsked => cases hd; cases hon; exact .inr .oneAnswered
    | _ => cases hd

theorem on_peerTermAck (h : Meet x y) (hd : x.due = .pipeTermAck :: left)
    (hon : x.state.on .peerTermAck = some (s, a)) :
    Meet (x.on .peerTermAck s a left) { y with due := y.due ++ a.commands } := by
  rcases h with h | h
  · cases h with
    | answered => cases hd; cases hon; exact .inl .closing
    | bothAnswered => cases hd; cases hon; exact .inr .oneClosed
    | oneClosed => cases hd; cases hon; exact .inl .bothClosed
    | _ => cases hd
  · cases h with
    | closing => cases hd; cases hon; exact .inr .closed
    | bothAnswered => cases hd; cases hon; exact .inr .oneClosed
    | _ => cases hd

/-- **Every signal that arises leads from stances that can meet to stances that can meet.** A
delimiter arises of a peer that asked to terminate, a signal of the peer where its command is
due. -/
theorem on {sg : Signal} (h : Meet x y) (hd : x.due = sg.taken ++ left)
    (hon : x.state.on sg = some (s, a)) (hy : sg = .delimiterRead → y.state = .terminated) :
    Meet (x.on sg s a left) { y with due := y.due ++ a.commands } := by
  cases sg with
  | delimiterRead =>
    obtain rfl : x.due = left := hd
    exact h.on_delimiterRead hon (hy rfl)
  | terminate d =>
    obtain rfl : x.due = left := hd
    exact h.on_terminate hon
  | peerTerm d => exact h.on_peerTerm hd hon
  | peerTermAck => exact h.on_peerTermAck hd hon

/-! ### What one stance says of the other -/

theorem isSome_of_term (h : Meet x y) (hd : x.due = .pipeTerm :: left) (d : Bool) :
    (x.state.on (.peerTerm d)).isSome = true := by
  rcases h with h | h
  · cases h with
    | bothAsked | oneAnswered => rfl
    | _ => cases hd
  · cases h with
    | asked hs => rcases hs with rfl | rfl <;> cases d <;> rfl
    | bothAsked => rfl
    | _ => cases hd

/-- An acknowledgment is underway to an end that is not taken down and may take it, from an end that
gave its outbound queue up. -/
theorem of_ack (h : Meet x y) (hd : x.due = .pipeTermAck :: left) :
    x.closed = false ∧ (x.state.on .peerTermAck).isSome = true ∧ y.state.hasReleased = true := by
  rcases h with h | h
  · cases h with
    | answered | bothAnswered | oneClosed => exact ⟨rfl, rfl, rfl⟩
    | _ => cases hd
  · cases h with
    | closing | bothAnswered => exact ⟨rfl, rfl, rfl⟩
    | _ => cases hd

/-- The peer of an end that still reads is in operation, or asked to terminate. -/
theorem of_readable (h : Meet x y) (hx : x.state.isReadable = true) :
    x.closed = false ∧ (y.state = .active ∨ y.state = .terminated) := by
  rcases h with h | h
  · cases h with
    | fresh => exact ⟨rfl, .inl rfl⟩
    | _ => cases hx
  · cases h with
    | fresh => exact ⟨rfl, .inl rfl⟩
    | asked hs => exact ⟨rfl, .inr rfl⟩
    | pending => exact ⟨rfl, .inr rfl⟩
    | _ => cases hx

/-- Once nothing is underway, the handshake has not begun, waits for one end to read its messages,
or is over at both ends, which are in the state that says whether both asked. -/
theorem of_idle (h : Meet x y) (hx : x.due = []) (hy : y.due = []) :
    (x.state = .active ∧ y.state = .active) ∨
      (x.state = .pending ∧ y.state = .terminated ∨ x.state = .terminated ∧ y.state = .pending) ∨
      x.closed = true ∧ y.closed = true ∧ x.state = y.state ∧
        x.state = if x.asked && y.asked then .doubleTerminated else .terminating := by
  rcases h with h | h
  · cases h with
    | fresh => exact .inl ⟨rfl, rfl⟩
    | pending => exact .inr (.inl (.inr ⟨rfl, rfl⟩))
    | closed | bothClosed => exact .inr (.inr ⟨rfl, rfl, rfl, rfl⟩)
    | asked | closing | bothAsked => cases hy
    | _ => cases hx
  · cases h with
    | fresh => exact .inl ⟨rfl, rfl⟩
    | pending => exact .inr (.inl (.inl ⟨rfl, rfl⟩))
    | closed | bothClosed => exact .inr (.inr ⟨rfl, rfl, rfl, rfl⟩)
    | asked | closing | bothAsked => cases hx
    | _ => cases hy

/-- An end that is taken down has its peer taken down, or a signal is underway to that. -/
theorem of_closed (h : Meet x y) (hx : x.closed = true) : y.closed = true ∨ y.due ≠ [] := by
  rcases h with h | h
  · cases h with
    | closing => exact .inr (List.cons_ne_nil _ _)
    | closed | bothClosed => exact .inl rfl
    | _ => cases hx
  · cases h with
    | closed | bothClosed => exact .inl rfl
    | oneClosed => exact .inr (List.cons_ne_nil _ _)
    | _ => cases hx

/-- Where one end never asked to terminate, nothing asks the other one to, and that is in operation
as long as it does not ask itself. -/
theorem of_unasked (h : Meet x y) (hy : y.asked = false) :
    .pipeTerm ∉ x.due ∧ ((x.state = .active ∧ y.state = .active) ∨ x.state = .terminated ∨
      x.closed = true) := by
  rcases h with h | h
  · cases h with
    | fresh => exact ⟨List.not_mem_nil, .inl ⟨rfl, rfl⟩⟩
    | asked | pending => exact ⟨List.not_mem_nil, .inr (.inl rfl)⟩
    | answered => exact ⟨by simp, .inr (.inl rfl)⟩
    | closing | closed => exact ⟨List.not_mem_nil, .inr (.inr rfl)⟩
    | _ => cases hy
  · cases h with
    | fresh => exact ⟨List.not_mem_nil, .inl ⟨rfl, rfl⟩⟩
    | _ => cases hy

end Meet

/-! ## What a reaction means for the handshake -/

theorem Action.isSignal_of_mem {a : Action} {c : Command} (h : c ∈ a.commands) :
    c.isSignal = true := by
  cases a with
  | none | ignore => cases h
  | sendTerm | releaseAndAck =>
    rw [List.mem_singleton.1 h]
    rfl
  | deallocate ack =>
    cases ack with
    | true =>
      rw [List.mem_singleton.1 h]
      rfl
    | false => cases h

theorem Action.filter_commands (a : Action) :
    a.commands.filter CommandOf.isSignal = a.commands :=
  List.filter_eq_self.2 fun _ h => isSignal_of_mem h

/-- A command of the handshake is not among commands that have no part in it. -/
theorem not_mem_of_filter_isSignal {cs : List Command} {c : Command}
    (h : cs.filter CommandOf.isSignal = []) (hc : c.isSignal = true) : c ∉ cs :=
  fun hm => List.filter_eq_nil_iff.1 h c hm hc

/-- A reaction takes an endpoint in state `s₀` one signal further. -/
structure Reaction.Signals (r : Reaction) (p : Pipe) (st : Stimulus) (sg : Signal) (s : State)
    (a : Action) : Prop where
  on : p.state.on sg = some (s, a)
  state : r.pipe.state = s
  closed : r.pipe.isClosed = (p.isClosed || sg == .peerTermAck)
  posted : r.posted.filter CommandOf.isSignal = a.commands
  taken : st.taken.filter CommandOf.isSignal = sg.taken

/-- A reaction has no part in the handshake. -/
structure Reaction.Silent (r : Reaction) (p : Pipe) (st : Stimulus) : Prop where
  state : r.pipe.state = p.state
  closed : r.pipe.isClosed = p.isClosed
  posted : r.posted.filter CommandOf.isSignal = []
  taken : st.taken.filter CommandOf.isSignal = []

/-- A command of the handshake that an endpoint cannot take. -/
def Pipe.Refuses (p : Pipe) : Stimulus → Prop
  | .command .pipeTerm => p.state.on (.peerTerm p.delay) = none
  | .command .pipeTermAck => p.inbound = none ∨ p.state.on .peerTermAck = none
  | _ => False

/-- A delimiter is the next frame an endpoint reads. -/
def Pipe.AtDelimiter (p : Pipe) (v : View) : Prop :=
  p.mayRead = true ∧ ∃ q f fs, p.inbound = some q ∧ (v q).visible = f :: fs ∧ f.isDelimiter = true

theorem Reacts.signals {p : Pipe} {v : View} {st : Stimulus} {r : Reaction}
    (h : Reacts p v st r) :
    (∃ sg s a, r.Signals p st sg s a ∧ (sg = .delimiterRead → p.AtDelimiter v)) ∨
      r.Silent p st ∨ p.Refuses st := by
  have hor : ∀ sg : Signal, sg ≠ .peerTermAck → p.isClosed = (p.isClosed || sg == .peerTermAck) :=
    fun sg hne => by rw [beq_false_of_ne hne, Bool.or_false]
  cases h with
  | @lookDelimiter c r q f fs s a hc hm hi hv hf hon =>
    refine .inl ⟨_, s, a, ⟨hon, rfl, hor _ (by decide), a.filter_commands, rfl⟩, fun _ => ?_⟩
    exact ⟨hm, q, f, fs, hi, hv, hf⟩
  | @terminateIgnored d s hon =>
    refine .inl ⟨.terminate d, s, .ignore, ⟨hon, ?_, hor _ (by simp), rfl, rfl⟩, by rintro ⟨⟩⟩
    exact (Turn.on_terminate_ignore hon).symm
  | @terminateReleased d s a hon ha hq =>
    refine .inl ⟨.terminate d, s, a, ⟨hon, rfl, hor _ (by simp), a.filter_commands, rfl⟩, ?_⟩
    rintro ⟨⟩
  | @terminate d s a q hon ha hq h =>
    refine .inl ⟨.terminate d, s, a, ⟨hon, rfl, hor _ (by simp), ?_, rfl⟩, by rintro ⟨⟩⟩
    rw [List.filter_append, a.filter_commands, Segments.filter_wake rfl, List.append_nil]
  | @terminateFault d s a q hon ha hq h =>
    refine .inl ⟨.terminate d, s, a, ⟨hon, rfl, hor _ (by simp), a.filter_commands, rfl⟩, ?_⟩
    rintro ⟨⟩
  | @pipeTerm s a hon =>
    refine .inl ⟨.peerTerm p.delay, s, a, ⟨hon, rfl, hor _ (by simp), a.filter_commands, rfl⟩, ?_⟩
    rintro ⟨⟩
  | pipeTermFault hon => exact .inr (.inr hon)
  | pipeTermAckTwice hi => exact .inr (.inr (.inl hi))
  | pipeTermAckFault hi hon => exact .inr (.inr (.inr hon))
  | @pipeTermAck q s a hi hon =>
    refine .inl ⟨.peerTermAck, s, a, ⟨hon, rfl, ?_, a.filter_commands, rfl⟩, by rintro ⟨⟩⟩
    exact (Bool.or_true _).symm
  | readFrame => exact .inr (.inl ⟨rfl, rfl, Pipe.filter_report (fun _ => rfl) .., rfl⟩)
  | flush => exact .inr (.inl ⟨rfl, rfl, Segments.filter_wake rfl _, rfl⟩)
  | hiccup hs hi => exact .inr (.inl ⟨rfl, by simp [Pipe.isClosed, hi], rfl, rfl⟩)
  | hiccupMoved => exact .inr (.inl ⟨rfl, rfl, Segments.filter_wake rfl _, rfl⟩)
  | _ => exact .inr (.inl ⟨rfl, rfl, rfl, rfl⟩)

/-- The state is left to a signal alone. -/
theorem Reacts.state_cases {p : Pipe} {v : View} {st : Stimulus} {r : Reaction}
    (h : Reacts p v st r) :
    r.pipe.state = p.state ∨ ∃ sg s a, p.state.on sg = some (s, a) ∧ r.pipe.state = s := by
  cases h with
  | lookDelimiter hc hm hi hv hf hon => exact .inr ⟨_, _, _, hon, rfl⟩
  | terminateReleased hon => exact .inr ⟨_, _, _, hon, rfl⟩
  | terminate hon => exact .inr ⟨_, _, _, hon, rfl⟩
  | terminateFault hon => exact .inr ⟨_, _, _, hon, rfl⟩
  | pipeTerm hon => exact .inr ⟨_, _, _, hon, rfl⟩
  | pipeTermAck hi hon => exact .inr ⟨_, _, _, hon, rfl⟩
  | _ => exact .inl rfl

/-! ## Pairs that agree -/

theorem State.hasReleased_on {s s' : State} {sg : Signal} {a : Action}
    (h : s.on sg = some (s', a)) : s'.hasReleased = (s.hasReleased || a.releases) := by
  cases move_of_on h <;> rfl

/-- An endpoint gave its outbound queue up if its state says so. -/
def Pipe.Honest (p : Pipe) : Prop :=
  p.outbound.isNone = p.state.hasReleased

theorem Pipe.Honest.exists_outbound {p : Pipe} (h : p.Honest) (hs : p.state = .active) :
    ∃ q, p.outbound = some q := by
  rw [Pipe.Honest, hs] at h
  exact Option.isSome_iff_exists.1 (Option.isNone_eq_false_iff.1 h)

theorem Pipe.Honest.signalled {p : Pipe} {s : State} {sg : Signal} {a : Action} (h : p.Honest)
    (hon : p.state.on sg = some (s, a)) : (p.signalled s a).Honest := by
  unfold Pipe.Honest Pipe.signalled
  rw [State.hasReleased_on hon, ← h]
  cases a.releases <;> simp

theorem Reacts.honest {p : Pipe} {v : View} {st : Stimulus} {r : Reaction}
    (h : Reacts p v st r) (hp : p.Honest) : r.pipe.Honest := by
  cases h with
  | lookDelimiter hc hm hi hv hf hon => exact hp.signalled hon
  | terminateReleased hon ha hq => exact hp.signalled hon
  | terminate hon ha hq h => exact hp.signalled hon
  | terminateFault hon ha hq h => exact hp.signalled hon
  | pipeTerm hon => exact hp.signalled hon
  | pipeTermAck hi hon => exact hp.signalled hon
  | hiccupMoved hs hq =>
    unfold Pipe.Honest at *
    rw [hq] at hp
    exact hp
  | hiccupUnflushed hs hq =>
    unfold Pipe.Honest at *
    rw [hq] at hp
    exact hp
  | _ => exact hp

namespace Pair

/-- What the handshake knows of one end of a pair. -/
def stance (x : Pair) (s : Side) : Stance where
  state := (x.pipe s).state
  closed := (x.pipe s).isClosed
  asked := decide (.pipeTerm ∈ x.posted s)
  due := (x.due s).filter CommandOf.isSignal

/-- The ends of a pair agree on how far termination has come. -/
structure Agrees (x : Pair) : Prop where
  honest : ∀ s, (x.pipe s).Honest
  meet : ∀ s, Meet (x.stance s) (x.stance s.other)

theorem agrees_of_side {x : Pair} (s : Side) (h : ∀ s, (x.pipe s).Honest)
    (hm : Meet (x.stance s) (x.stance s.other)) : Agrees x where
  honest := h
  meet s' := by
    rcases s.eq_or_eq_other s' with rfl | rfl
    · exact hm
    · rw [Side.other_other]
      exact hm.symm

theorem pipeTerm_mem_filter {cs : List Command} :
    .pipeTerm ∈ cs.filter CommandOf.isSignal ↔ .pipeTerm ∈ cs := by
  simp [CommandOf.isSignal]

section React

variable {x : Pair} {s : Side} {st : Stimulus} {r : Reaction} {left : List Command}

/-- An end refuses no command that is underway to it. -/
theorem Agrees.not_refuses (h : Agrees x) (hd : x.due s = st.taken ++ left) :
    ¬(x.pipe s).Refuses st := by
  have hm := h.meet s
  intro hn
  cases st with
  | call c => exact hn
  | command c =>
    have hf : (x.stance s).due = ([c] ++ left).filter CommandOf.isSignal := by
      rw [← show x.due s = [c] ++ left from hd]
      rfl
    cases c with
    | pipeTerm =>
      have := hm.isSome_of_term hf (x.pipe s).delay
      rw [show (x.stance s).state = (x.pipe s).state from rfl, hn] at this
      cases this
    | pipeTermAck =>
      obtain ⟨hc, ho, -⟩ := hm.of_ack hf
      rcases hn with hn | hn
      · rw [show (x.stance s).closed = (x.pipe s).inbound.isNone from rfl, hn] at hc
        cases hc
      · rw [show (x.stance s).state = (x.pipe s).state from rfl, hn] at ho
        cases ho
    | _ => exact hn

/-- **The ends keep agreeing,** as long as a delimiter is read only of a peer that asked to
terminate. -/
theorem Agrees.react (h : Agrees x) (hd : x.due s = st.taken ++ left)
    (hr : Reacts (x.pipe s) x.view st r)
    (hl : (x.pipe s).AtDelimiter x.view → (x.pipe s.other).state = .terminated) :
    Agrees (x.after s st r left) := by
  have hf : (x.stance s).due =
      st.taken.filter CommandOf.isSignal ++ left.filter CommandOf.isSignal := by
    rw [← List.filter_append, ← hd]
    rfl
  have ho : (x.after s st r left).stance s.other = { x.stance s.other with
      due := (x.stance s.other).due ++ r.posted.filter CommandOf.isSignal } := by
    simp only [stance, pipe_after_other, due_after_other, posted_after_other, List.filter_append]
  refine agrees_of_side s (fun s' => ?_) ?_
  · rcases s.eq_or_eq_other s' with rfl | rfl
    · rw [pipe_after_self]
      exact hr.honest (h.honest _)
    · rw [pipe_after_other]
      exact h.honest _
  rw [ho]
  rcases hr.signals with ⟨sg, s', a, hs, hdel⟩ | hs | hn
  · rw [hs.taken] at hf
    rw [hs.posted]
    have hown : (x.after s st r left).stance s =
        (x.stance s).on sg s' a (left.filter CommandOf.isSignal) := by
      have hp : decide (CommandOf.pipeTerm ∈ r.posted) =
          decide (CommandOf.pipeTerm ∈ a.commands) := by
        rw [← hs.posted, decide_eq_decide.2 pipeTerm_mem_filter]
      simp only [stance, Stance.on, pipe_after_self, due_after_self, posted_after_self, hs.state,
        hs.closed, List.mem_append, Bool.decide_or, hp]
    rw [hown]
    exact (h.meet s).on hf hs.on fun he => hl (hdel he)
  · rw [hs.posted, List.append_nil]
    rw [hs.taken, List.nil_append] at hf
    have hown : (x.after s st r left).stance s = x.stance s := by
      have hp : CommandOf.pipeTerm ∉ r.posted := by
        rw [← pipeTerm_mem_filter, hs.posted]
        exact List.not_mem_nil
      rw [show (x.stance s) = { x.stance s with due := left.filter CommandOf.isSignal } from
        hf ▸ rfl]
      simp only [stance, pipe_after_self, due_after_self, posted_after_self, hs.state, hs.closed,
        List.mem_append, hp, or_false]
    rw [hown]
    exact h.meet s
  · exact absurd hn (h.not_refuses hd)

end React

theorem Agrees.equip {x : Pair} (h : Agrees x) (s : Side) (sink : Option Sink)
    (identity : Option Identity) : Agrees (x.equip s sink identity) := by
  have hst : ∀ s', (x.equip s sink identity).stance s' = x.stance s' := fun s' => by
    obtain ⟨k, i, he⟩ := x.pipe_equip s sink identity s'
    rw [stance, he]
    rfl
  refine ⟨fun s' => ?_, fun s' => ?_⟩
  · obtain ⟨k, i, he⟩ := x.pipe_equip s sink identity s'
    rw [he]
    exact h.honest s'
  · rw [hst, hst]
    exact h.meet s'

theorem agrees_start {pipe : Side → Pipe} (h : ∀ s, Link.Fresh (pipe s) s) :
    Agrees (start pipe) := by
  have hst : ∀ s, (start pipe).stance s = { state := .active } := fun s => by
    unfold stance Pipe.isClosed start
    dsimp only
    rw [(h s).state, (h s).inbound]
    rfl
  refine ⟨fun s => ?_, fun s => ?_⟩
  · show (pipe s).Honest
    unfold Pipe.Honest
    rw [(h s).outbound, (h s).state]
    rfl
  · rw [hst, hst]
    exact .inl .fresh

end Pair

end MessagePipe
