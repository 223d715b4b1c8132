import MessagePipe.Pipe.Call
import MessagePipe.Proofs.View

/-!
# What an endpoint does, case by case

A `Reaction` is all that comes of one call or one command: the result, the endpoint and the queues
afterwards, and what was sent, notified and taken back. `Reacts p v st r` lists every reaction of
the endpoint `p` to `st` while the queues hold `v`, each with the guards under which it occurs. It
is §4.2 and §4.3 of the specification written as one relation, with the peer-side hiccup of §11.3.

The cases go by the operation: `write` has four (a delimiter, a frame that is accepted, and two in
which it is handed back), `terminate` four, and so on. Where two operations do the same, they share
a case: `read` and `check_read` where there is nothing to look for (`Call.emptyReply`), where the
queue is empty, and where a delimiter is at its head. What a case says of the endpoint is a record
update, so a fact about a field that is not named follows by reflexivity.

That every turn reacts in one of these ways is proved in `Proofs/Turn`, the only module that opens
an operation. What holds of every case here then holds of every call and every command; the step
lemma of each invariant is a proof by cases over `Reacts`, and survives a change of an operation
that leaves its cases as they are.

`Reacts.unique`: there is one way to react, so where the guards of a case hold, it is what happens.

Left out, since no result needs it: the entries in the log. What tasks enter there is in
`Proofs/Entries`.
-/

namespace MessagePipe

/-! ## Reactions -/

/-- What an endpoint is made to do. -/
inductive Stimulus where
  /-- Its owner calls it. -/
  | call (call : Call)
  /-- It takes a command of its peer. -/
  | command (command : Command)

/-- The commands underway that a stimulus takes. -/
def Stimulus.taken : Stimulus → List Command
  | .call _ => []
  | .command c => [c]

/-- What comes of a stimulus. -/
structure Reaction where
  result : Except Fault Reply := .ok .done
  pipe : Pipe
  view : View
  posted : List Command := []
  events : List Event := []
  takenBack : Nat := 0

/-- How many frames an effect took back. -/
def Effect.frames : Effect → Nat
  | .note (.rolledBack _ count) => count
  | _ => 0

/-- How many frames the effects of a call took back. -/
def Effect.takenBack : List Effect → Nat
  | [] => 0
  | e :: es => e.frames + takenBack es

/-- What the queues of a turn hold. -/
def Turn.view (t : Turn) : View :=
  t.queues.view

/-- How many frames a turn took back. -/
def Turn.takenBack (t : Turn) : Nat :=
  Effect.takenBack t.effects

/-- What a turn comes to that had done nothing before. -/
def Outcome.reaction (o : Outcome Reply) : Reaction where
  result := o.result
  pipe := o.turn.pipe
  view := o.turn.view
  posted := o.turn.posted
  events := o.turn.events
  takenBack := o.turn.takenBack

/-- The commands an action of the handshake sends. -/
def Action.commands : Action → List Command
  | .sendTerm => [.pipeTerm]
  | .releaseAndAck | .deallocate true => [.pipeTermAck]
  | .none | .ignore | .deallocate false => []

/-- Does an action give the outbound queue up? -/
def Action.releases : Action → Bool
  | .releaseAndAck | .deallocate true => true
  | _ => false

namespace Pipe

/-- The endpoint in another state, with its outbound queue given up if the action says so. -/
def signalled (p : Pipe) (s : State) (a : Action) : Pipe :=
  { p with state := s, outbound := if a.releases then none else p.outbound }

/-- The endpoint after reading a frame. -/
def counted (p : Pipe) (f : Frame) : Pipe :=
  { p with msgsRead := p.msgsRead + if f.hasMore then 0 else 1 }

/-- The report due after reading a frame. -/
def report (p : Pipe) (f : Frame) : List Command :=
  if !f.hasMore && p.isReportedAt (p.msgsRead + 1) then [.activateWrite (p.msgsRead + 1)] else []

theorem filter_report {k : Command → Bool} (h : ∀ n, k (.activateWrite n) = false) (p : Pipe)
    (f : Frame) : (p.report f).filter k = [] := by
  unfold report
  split
  · rw [List.filter_cons_of_neg (by simp [h]), List.filter_nil]
  · rfl

end Pipe

/-- What a look for inbound frames answers where there is none. -/
def Call.emptyReply : Call → Option Reply
  | .read => some .nothing
  | .checkRead => some (.flag false)
  | _ => none

open Function (update)

/-- **The ways an endpoint reacts.** -/
inductive Reacts (p : Pipe) (v : View) : Stimulus → Reaction → Prop where
  | writeDelimiter {f : Frame} (hf : f.isDelimiter = true) :
      Reacts p v (.call (.write f)) { result := .error .delimiterWritten, pipe := p, view := v }
  | writeRefused {f : Frame} (hf : f.isDelimiter = false)
      (h : p.outActive = false ∨ p.state ≠ .active ∨ p.isFull = false ∧ p.outbound = none) :
      Reacts p v (.call (.write f)) { result := .ok (.refused f), pipe := p, view := v }
  | writeFull {f : Frame} (hf : f.isDelimiter = false) (ho : p.outActive = true)
      (hs : p.state = .active) (hn : p.isFull = true) :
      Reacts p v (.call (.write f))
        { result := .ok (.refused f), pipe := { p with outActive := false }, view := v }
  | writeAccepted {f : Frame} {q : QueueId} (hf : f.isDelimiter = false)
      (ho : p.outActive = true) (hs : p.state = .active) (hn : p.isFull = false)
      (hq : p.outbound = some q) :
      Reacts p v (.call (.write f))
        { result := .ok .accepted
          pipe := { p with msgsWritten := p.msgsWritten + if f.hasMore then 0 else 1 }
          view := update v q ((v q).write f f.hasMore) }
  | checkWriteTrue (ho : p.outActive = true) (hs : p.state = .active) (hn : p.isFull = false) :
      Reacts p v (.call .checkWrite) { result := .ok (.flag true), pipe := p, view := v }
  | checkWriteFalse (h : p.outActive = false ∨ p.state ≠ .active) :
      Reacts p v (.call .checkWrite) { result := .ok (.flag false), pipe := p, view := v }
  | checkWriteFull (ho : p.outActive = true) (hs : p.state = .active) (hn : p.isFull = true) :
      Reacts p v (.call .checkWrite)
        { result := .ok (.flag false), pipe := { p with outActive := false }, view := v }
  | flushNothing (h : p.state = .terminating ∨ p.outbound = none) :
      Reacts p v (.call .flush) { pipe := p, view := v }
  | flush {q : QueueId} (hs : p.state ≠ .terminating) (hq : p.outbound = some q) :
      Reacts p v (.call .flush)
        { pipe := p, view := update v q (v q).flush.2, posted := (v q).wake }
  | rollbackNothing (hq : p.outbound = none) :
      Reacts p v (.call .rollback) { pipe := p, view := v }
  | rollback {q : QueueId} (hq : p.outbound = some q)
      (h : (v q).fragments.all Frame.hasMore = true) :
      Reacts p v (.call .rollback)
        { pipe := p, view := update v q { v q with fragments := [] }
          takenBack := (v q).fragments.length }
  | rollbackFault {q : QueueId} (hq : p.outbound = some q)
      (h : (v q).fragments.all Frame.hasMore = false) :
      Reacts p v (.call .rollback)
        { result := .error .unflaggedFragment, pipe := p
          view := update v q
            { v q with fragments := ((v q).fragments.rdropWhile Frame.hasMore).dropLast } }
  | lookIdle {c : Call} {r : Reply} (hc : c.emptyReply = some r) (hm : p.mayRead = false) :
      Reacts p v (.call c) { result := .ok r, pipe := p, view := v }
  | readClosed (hm : p.mayRead = true) (hi : p.inbound = none) :
      Reacts p v (.call .read)
        { result := .ok .nothing, pipe := { p with inActive := false }, view := v }
  | checkReadClosed (hm : p.mayRead = true) (hi : p.inbound = none) :
      Reacts p v (.call .checkRead) { result := .ok (.flag false), pipe := p, view := v }
  | lookDry {c : Call} {r : Reply} {q : QueueId} (hc : c.emptyReply = some r)
      (hm : p.mayRead = true) (hi : p.inbound = some q) (hv : (v q).visible = []) :
      Reacts p v (.call c)
        { result := .ok r, pipe := { p with inActive := false }
          view := update v q { v q with idle := true } }
  | lookDelimiter {c : Call} {r : Reply} {q : QueueId} {f : Frame} {fs : List Frame} {s : State}
      {a : Action} (hc : c.emptyReply = some r) (hm : p.mayRead = true) (hi : p.inbound = some q)
      (hv : (v q).visible = f :: fs) (hf : f.isDelimiter = true)
      (hon : p.state.on .delimiterRead = some (s, a)) :
      Reacts p v (.call c)
        { result := .ok r, pipe := p.signalled s a, view := update v q { v q with visible := fs }
          posted := a.commands }
  | readFrame {q : QueueId} {f : Frame} {fs : List Frame} (hm : p.mayRead = true)
      (hi : p.inbound = some q) (hv : (v q).visible = f :: fs) (hf : f.isDelimiter = false) :
      Reacts p v (.call .read)
        { result := .ok (.frame f), pipe := p.counted f
          view := update v q { v q with visible := fs }, posted := p.report f }
  | seeFrame {q : QueueId} {f : Frame} {fs : List Frame} (hm : p.mayRead = true)
      (hi : p.inbound = some q) (hv : (v q).visible = f :: fs) (hf : f.isDelimiter = false) :
      Reacts p v (.call .checkRead) { result := .ok (.flag true), pipe := p, view := v }
  | terminateIgnored {d : Bool} {s : State} (hon : p.state.on (.terminate d) = some (s, .ignore)) :
      Reacts p v (.call (.terminate d)) { pipe := { p with delay := d }, view := v }
  | terminateReleased {d : Bool} {s : State} {a : Action}
      (hon : p.state.on (.terminate d) = some (s, a)) (ha : a ≠ .ignore)
      (hq : (p.signalled s a).outbound = none) :
      Reacts p v (.call (.terminate d))
        { pipe := { p.signalled s a with delay := d, outActive := false }, view := v
          posted := a.commands }
  | terminate {d : Bool} {s : State} {a : Action} {q : QueueId}
      (hon : p.state.on (.terminate d) = some (s, a)) (ha : a ≠ .ignore)
      (hq : (p.signalled s a).outbound = some q)
      (h : (v q).fragments.all Frame.hasMore = true) :
      Reacts p v (.call (.terminate d))
        { pipe := { p.signalled s a with delay := d, outActive := false }
          view := update v q (v q).ended.flush.2
          posted := a.commands ++ (v q).ended.wake, takenBack := (v q).fragments.length }
  | terminateFault {d : Bool} {s : State} {a : Action} {q : QueueId}
      (hon : p.state.on (.terminate d) = some (s, a)) (ha : a ≠ .ignore)
      (hq : (p.signalled s a).outbound = some q)
      (h : (v q).fragments.all Frame.hasMore = false) :
      Reacts p v (.call (.terminate d))
        { result := .error .unflaggedFragment
          pipe := { p.signalled s a with delay := d, outActive := false }
          view := update v q
            { v q with fragments := ((v q).fragments.rdropWhile Frame.hasMore).dropLast }
          posted := a.commands }
  | hiccupIgnored (h : p.state ≠ .active ∨ p.inbound = none) :
      Reacts p v (.call .hiccup) { pipe := p, view := v }
  | hiccup {q : QueueId} (hs : p.state = .active) (hi : p.inbound = some q) :
      Reacts p v (.call .hiccup)
        { pipe :=
            { p with
              inbound := some (.inbound p.id (p.generation + 1))
              generation := p.generation + 1
              inActive := true }
          view := update v (.inbound p.id (p.generation + 1)) {}
          posted := [.hiccup (.inbound p.id (p.generation + 1)) q] }
  | pipeTerm {s : State} {a : Action} (hon : p.state.on (.peerTerm p.delay) = some (s, a)) :
      Reacts p v (.command .pipeTerm)
        { pipe := p.signalled s a, view := v, posted := a.commands }
  | pipeTermFault (hon : p.state.on (.peerTerm p.delay) = none) :
      Reacts p v (.command .pipeTerm)
        { result := .error (.protocolViolation (.peerTerm p.delay) p.state), pipe := p, view := v }
  | pipeTermAckTwice (hi : p.inbound = none) :
      Reacts p v (.command .pipeTermAck)
        { result := .error (.acknowledgedTwice p.id), pipe := p, view := v }
  | pipeTermAckFault {q : QueueId} (hi : p.inbound = some q)
      (hon : p.state.on .peerTermAck = none) :
      Reacts p v (.command .pipeTermAck)
        { result := .error (.protocolViolation .peerTermAck p.state), pipe := p, view := v }
  | pipeTermAck {q : QueueId} {s : State} {a : Action} (hi : p.inbound = some q)
      (hon : p.state.on .peerTermAck = some (s, a)) :
      Reacts p v (.command .pipeTermAck)
        { pipe := { p.signalled s a with inbound := none }
          view := update v q { v q with visible := [], idle := true }
          posted := a.commands, events := [.terminated] }
  | activateRead (h : p.inActive = false) (hs : p.state.isReadable = true) :
      Reacts p v (.command .activateRead)
        { pipe := { p with inActive := true }, view := v, events := [.readActivated] }
  | activateReadIgnored (h : p.inActive = true ∨ p.state.isReadable = false) :
      Reacts p v (.command .activateRead) { pipe := p, view := v }
  | activateWrite {n : Nat} (h : p.outActive = false) (hs : p.state = .active) :
      Reacts p v (.command (.activateWrite n))
        { pipe := { p with peersMsgsRead := n, outActive := true }, view := v
          events := [.writeActivated] }
  | activateWriteQuiet {n : Nat} (h : p.outActive = true ∨ p.state ≠ .active) :
      Reacts p v (.command (.activateWrite n))
        { pipe := { p with peersMsgsRead := n }, view := v }
  | hiccupReleased {w r : QueueId} (hq : p.outbound = none) :
      Reacts p v (.command (.hiccup w r)) { pipe := p, view := v }
  | hiccupMoved {w r old : QueueId} (hs : p.state ≠ .terminating) (hq : p.outbound = some old) :
      Reacts p v (.command (.hiccup w r))
        { pipe := { p with outbound := some w, outActive := true }
          view := update (v.moveStream old w r) w (v.moveStream old w r w).flush.2
          posted := (v.moveStream old w r w).wake
          events := if p.state = .active then [.hiccuped] else [] }
  | hiccupUnflushed {w r old : QueueId} (hs : p.state = .terminating) (hq : p.outbound = some old) :
      Reacts p v (.command (.hiccup w r))
        { pipe := { p with outbound := some w, outActive := true }, view := v.moveStream old w r }

theorem Reacts.of_eq {p : Pipe} {v : View} {st : Stimulus} {r r' : Reaction}
    (h : Reacts p v st r) (e : r' = r) : Reacts p v st r' :=
  e ▸ h

/-- **There is one way to react.** -/
theorem Reacts.unique {p : Pipe} {v : View} {st : Stimulus} {r r' : Reaction}
    (h : Reacts p v st r) (h' : Reacts p v st r') : r = r' := by
  -- The two are the same reaction, or their guards exclude each other.
  cases h <;> cases h' <;> grind [Call.emptyReply]

end MessagePipe
