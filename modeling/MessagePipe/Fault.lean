import MessagePipe.Event
import MessagePipe.Handshake

/-!
# Faults: breaches of the terms of use

A fault is raised where an owner or a peer does what the terms of use rule out: an assertion of the
program that fails, or a pair of state and signal the handshake never meets (§7 and §10.3 of the
specification: contract violations are panics). It ends the call, and what the call did before
stays: the `Turn` that comes with a fault is the one at the moment it was raised.

Four of the assertions are there only in a build that keeps debug assertions (`identityTaken`,
`delimiterWritten`, `unflaggedFragment`, `delimiterLost`); the model is of such a build. The three
others are there in every build. That a fault takes down the thread it is raised on is out of scope:
what is left of the pipe is what another look at it would find.

That no run of two owners who keep to the terms raises any of them is proved in `Proofs/Faultless`;
which commands raise one on any link whatever, and that nothing but a log entry comes of it, in
`Proofs/Breaches`.
-/

namespace MessagePipe

/-- A breach of the terms of use. -/
inductive Fault where
  /-- A signal arrived in a state the handshake never meets it in. -/
  | protocolViolation (signal : Signal) (state : State)
  /-- A second event sink was registered. -/
  | sinkTaken (pipe : PipeId)
  /-- The peer acknowledged an endpoint that was taken down before. -/
  | acknowledgedTwice (pipe : PipeId)
  /-- A second identity was attached. -/
  | identityTaken
  /-- An owner wrote a delimiter. -/
  | delimiterWritten
  /-- A frame staged as a fragment does not say that more frames follow. -/
  | unflaggedFragment
  /-- A delimiter that was seen could not be read. -/
  | delimiterLost
deriving DecidableEq, Repr, Inhabited

/-- The fault for a reader. -/
def Fault.message : Fault → String
  | protocolViolation signal state =>
    "pipe protocol violation: " ++ signal.describe ++ " in state " ++ state.name
  | sinkTaken pipe => pipe.label ++ " already has an event sink"
  | acknowledgedTwice pipe => pipe.label ++ " acknowledged twice"
  | identityTaken => "identity set twice"
  | delimiterWritten => "delimiter written by owner"
  | unflaggedFragment => "assertion failed: msg.has_more()"
  | delimiterLost => "assertion failed: delimiter.is_some()"

end MessagePipe
