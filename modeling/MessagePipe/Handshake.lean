/-!
# The termination handshake of one endpoint

Either end asks to terminate, the other one acknowledges, and the first acknowledges back. A
delimiter travels in the data queue, so that an end may read what was sent before it honours the
request. The two can cross: `State.on` is what an endpoint does about each signal in each state,
`none` where a signal cannot arise while the two ends follow the protocol, and the program panics.

The table is that of §4.3 of the specification, as the transition function of the program has it
(`State.on`), row by row. Three of its entries decide most of what happens later:

* to terminate in `active` leads to `terminated` whatever the delay, and only `active` and `pending`
  are readable (`State.isReadable`, `is_readable`);
* to terminate in `pending` with delay changes nothing, and is *not* the `ignore` of the states that
  asked before, so the caller goes on to end its stream;
* an acknowledgment in `terminated` is itself acknowledged, which makes the state `terminating`.

`State.Move` lists the transitions as a relation, one constructor for each row; `State.move_iff`
says that it is the table, and proofs go through its cases. The two kinds of signal an owner or the
queue gives rise to are never refused where they can occur: `on_terminate_isSome` for every state,
`on_delimiterRead_isSome` for the readable ones. So only the two signals of the peer can be a
breach.
-/

namespace MessagePipe

/-- How far an endpoint has come in terminating. -/
inductive State where
  /-- Normal operation. -/
  | active
  /-- The delimiter was read, the peer's request has not arrived. -/
  | delimited
  /-- The peer asked to terminate; pending inbound messages are still read. -/
  | pending
  /-- Everything inbound is dealt with and acknowledged; the peer's answer is awaited. -/
  | terminating
  /-- Termination was asked for here; the peer's answer is awaited. -/
  | terminated
  /-- Both ends asked to terminate; the peer's answer is awaited. -/
  | doubleTerminated
deriving DecidableEq, Repr, Inhabited

/-- What drives the handshake. -/
inductive Signal where
  /-- The delimiter was read from the inbound queue. -/
  | delimiterRead
  /-- The owner asked to terminate. -/
  | terminate (delay : Bool)
  /-- The peer's request arrived. -/
  | peerTerm (delay : Bool)
  /-- The peer's acknowledgment arrived. -/
  | peerTermAck
deriving DecidableEq, Repr, Inhabited

/-- What an endpoint has to do after a signal. -/
inductive Action where
  /-- Nothing but to change state. -/
  | none
  /-- Nothing at all: the request was made before. -/
  | ignore
  /-- Ask the peer to terminate. -/
  | sendTerm
  /-- Give up the outbound queue and acknowledge the peer's request. -/
  | releaseAndAck
  /-- Take the endpoint down, acknowledging the peer first if `ack` is set. -/
  | deallocate (ack : Bool)
deriving DecidableEq, Repr, Inhabited

/-- The state as one word. -/
def State.name : State → String
  | .active => "Active"
  | .delimited => "Delimited"
  | .pending => "Pending"
  | .terminating => "Terminating"
  | .terminated => "Terminated"
  | .doubleTerminated => "DoubleTerminated"

/-- Every state. -/
def State.all : List State :=
  [.active, .delimited, .pending, .terminating, .terminated, .doubleTerminated]

/-- The signal as text. -/
def Signal.describe : Signal → String
  | .delimiterRead => "DelimiterRead"
  | .terminate delay => "Terminate \x7b delay: " ++ toString delay ++ " \x7d"
  | .peerTerm delay => "PeerTerm \x7b delay: " ++ toString delay ++ " \x7d"
  | .peerTermAck => "PeerTermAck"

namespace State

/-- The next state and what is to be done. -/
def on : State → Signal → Option (State × Action)
  | active, .delimiterRead => some (delimited, .none)
  | active, .terminate _ => some (terminated, .sendTerm)
  | active, .peerTerm true => some (pending, .none)
  | active, .peerTerm false => some (terminating, .releaseAndAck)
  | active, .peerTermAck => none
  | delimited, .terminate _ => some (terminated, .sendTerm)
  | delimited, .peerTerm _ => some (terminating, .releaseAndAck)
  | delimited, .delimiterRead => none
  | delimited, .peerTermAck => none
  | pending, .delimiterRead => some (terminating, .releaseAndAck)
  | pending, .terminate true => some (pending, .none)
  | pending, .terminate false => some (terminating, .releaseAndAck)
  | pending, .peerTerm _ => none
  | pending, .peerTermAck => none
  | terminating, .terminate _ => some (terminating, .ignore)
  | terminating, .peerTermAck => some (terminating, .deallocate false)
  | terminating, .delimiterRead => none
  | terminating, .peerTerm _ => none
  | terminated, .terminate _ => some (terminated, .ignore)
  | terminated, .peerTerm _ => some (doubleTerminated, .releaseAndAck)
  | terminated, .peerTermAck => some (terminating, .deallocate true)
  | terminated, .delimiterRead => none
  | doubleTerminated, .terminate _ => some (doubleTerminated, .ignore)
  | doubleTerminated, .peerTermAck => some (doubleTerminated, .deallocate false)
  | doubleTerminated, .delimiterRead => none
  | doubleTerminated, .peerTerm _ => none

/-- May inbound messages still be handed to the owner? -/
def isReadable : State → Bool
  | active | pending => true
  | _ => false

/-- An owner may ask to terminate in every state. -/
theorem on_terminate_isSome (s : State) (delay : Bool) : (s.on (.terminate delay)).isSome := by
  cases s <;> cases delay <;> rfl

/-- A delimiter is in place exactly where messages may be read. -/
theorem on_delimiterRead_isSome (s : State) : (s.on .delimiterRead).isSome = s.isReadable := by
  cases s <;> rfl

/-- The moves of the handshake: from a state, on a signal, to a state, with an action. -/
inductive Move : State → Signal → State → Action → Prop where
  | delimit : Move active .delimiterRead delimited .none
  | drain : Move pending .delimiterRead terminating .releaseAndAck
  | ask {d : Bool} : Move active (.terminate d) terminated .sendTerm
  | askDelimited {d : Bool} : Move delimited (.terminate d) terminated .sendTerm
  | askToWait : Move pending (.terminate true) pending .none
  | askNotToWait : Move pending (.terminate false) terminating .releaseAndAck
  | askAfterAck {d : Bool} : Move terminating (.terminate d) terminating .ignore
  | askAgain {d : Bool} : Move terminated (.terminate d) terminated .ignore
  | askAfterBoth {d : Bool} : Move doubleTerminated (.terminate d) doubleTerminated .ignore
  | wait : Move active (.peerTerm true) pending .none
  | comply : Move active (.peerTerm false) terminating .releaseAndAck
  | complyDelimited {d : Bool} : Move delimited (.peerTerm d) terminating .releaseAndAck
  | cross {d : Bool} : Move terminated (.peerTerm d) doubleTerminated .releaseAndAck
  | ackAfterAck : Move terminating .peerTermAck terminating (.deallocate false)
  | ackFirst : Move terminated .peerTermAck terminating (.deallocate true)
  | ackAfterBoth : Move doubleTerminated .peerTermAck doubleTerminated (.deallocate false)

/-- **These are all moves there are.** -/
theorem move_iff {s s' : State} {sg : Signal} {a : Action} :
    Move s sg s' a ↔ s.on sg = some (s', a) := by
  constructor
  · intro h
    cases h <;> rfl
  · intro h
    unfold on at h
    split at h <;> cases h <;> constructor

theorem move_of_on {s s' : State} {sg : Signal} {a : Action} (h : s.on sg = some (s', a)) :
    Move s sg s' a :=
  move_iff.2 h

end State

end MessagePipe
