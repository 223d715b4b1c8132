import MessagePipe.Pipe.Process

/-!
# The calls of an owner

`Call` lists what an owner does with an endpoint in the course of a session, with what it passes
along, `Reply` what is answered; `Turn.perform` does a call. So a session is a list of calls, and a
statement about every session is one about every list. Calls that only look at an endpoint (its
number, its state, its watermarks and counters) change nothing and need no name: an endpoint is a
value that can be looked at.

Registering the sink and the identity belongs to setting an endpoint up, and is no call of a
session: `Pipe.setSink` and `Pipe.setIdentity` (`set_event_sink`, `set_identity`) change the
endpoint alone, once each. A second time is a breach of the terms of use. In the program the second
identity is a breach only where debug assertions are kept; the model is of such a build.

`Turn.reacts_perform`, in `Proofs/Turn`, says of each call which of the reactions listed in
`Proofs/Reaction` it is. Nothing after that module opens an operation of an endpoint again.
-/

namespace MessagePipe

/-- What an owner asks of an endpoint. -/
inductive Call where
  /-- Stage a frame. -/
  | write (frame : Frame)
  /-- Read the next frame. -/
  | read
  /-- Can a frame be read? -/
  | checkRead
  /-- Would a frame be accepted? -/
  | checkWrite
  /-- Publish the complete messages staged. -/
  | flush
  /-- Take back the fragments of an open message. -/
  | rollback
  /-- Replace the inbound queue. -/
  | hiccup
  /-- Start the termination handshake. -/
  | terminate (delay : Bool)
deriving DecidableEq

/-- What an endpoint answers. -/
inductive Reply where
  /-- Nothing to say. -/
  | done
  /-- Yes or no. -/
  | flag (value : Bool)
  /-- The frame was staged. -/
  | accepted
  /-- The frame is handed back. -/
  | refused (frame : Frame)
  /-- The frame read. -/
  | frame (frame : Frame)
  /-- There was nothing to read. -/
  | nothing
deriving DecidableEq

/-- The answer to an attempt to write. -/
def Reply.ofWrite : Option Frame → Reply
  | none => accepted
  | some f => refused f

/-- The answer to an attempt to read. -/
def Reply.ofRead : Option Frame → Reply
  | none => nothing
  | some f => frame f

namespace Turn

/-- Does what an owner asks for. -/
def perform (t : Turn) : Call → Outcome Reply
  | .write frame => (t.write frame).map .ofWrite
  | .read => t.read.map .ofRead
  | .checkRead => t.checkRead.map .flag
  | .checkWrite => t.checkWrite.2.answer (.flag t.checkWrite.1)
  | .flush => t.flush.answer .done
  | .rollback => t.rollback.map fun _ => .done
  | .hiccup => t.hiccup.answer .done
  | .terminate delay => (t.terminate delay).map fun _ => .done

end Turn

namespace Pipe

/-- Registers the owner's event sink, once. -/
def setSink (p : Pipe) (sink : Sink) : Except Fault Pipe :=
  match p.sink with
  | some _ => .error (.sinkTaken p.id)
  | none => .ok { p with sink := some sink }

/-- Attaches the identity of the writing side, once. -/
def setIdentity (p : Pipe) (identity : Identity) : Except Fault Pipe :=
  match p.identity with
  | some _ => .error .identityTaken
  | none => .ok { p with identity := some identity }

end Pipe

end MessagePipe
