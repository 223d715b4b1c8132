import MessagePipe.Event
import MessagePipe.Queue.Basic

/-!
# Commands the two ends of a pair send each other

A pipe never calls its peer. It posts a command, addressed to the peer, into the mailbox of the
peer's owner, who hands it on (§6 of the specification). There are five: a request to terminate and
its acknowledgment, the wake-up of a reader that had parked, the report of how many messages were
read in total, and the notice that a queue was replaced.

The notice carries two queue ends: the writing end of the new queue and the reading end of the
retired one. In the program these are moved with the command; here a command is over an arbitrary
type `E` of ends (`CommandOf`), which is used three times:

* a `Command` names the queues, and `Queues` has their contents;
* a `CommandView` has the one flag an end shows of itself when a command is printed;
* a sketch made outside has nothing, and gets fresh queues when it is used (`Exchange.equip`).

`CommandOf.name` is the name in the log, an `Envelope` the command with the pipe it is for.

Out of scope: that an end which was moved cannot be used twice. A command is a value, so an owner
who makes one up can name any queue; the results that allow for that say so (`Proofs/Exposure`).
-/

namespace MessagePipe

/-- The name of a queue. -/
inductive QueueId where
  /-- The inbound queue a pipe has after replacing `generation` earlier ones. -/
  | inbound (pipe : PipeId) (generation : Nat)
  /-- A queue made outside any pipe. -/
  | loose (number : Nat)
deriving DecidableEq, Repr, Inhabited

/-- An instruction for a pipe, sent by its peer, with queue ends given as `E`. -/
inductive CommandOf (E : Type) where
  /-- The peer asks to terminate. -/
  | pipeTerm
  /-- The peer acknowledges termination. -/
  | pipeTermAck
  /-- Messages were published to an inbound queue whose reader had parked. -/
  | activateRead
  /-- The peer has read this many messages in total. -/
  | activateWrite (count : Nat)
  /-- The peer replaced its inbound queue: `writer` feeds the new one, and what is left for the
  reader `retired` is to be moved over. -/
  | hiccup (writer retired : E)
deriving DecidableEq, Repr, Inhabited

/-- A command that names the queues it carries ends of. -/
abbrev Command := CommandOf QueueId

/-- A command as it looks from outside: of a writing end, whether it holds unflushed items; of a
reading end, whether the reader has parked. -/
abbrev CommandView := CommandOf Bool

namespace CommandOf

variable {E : Type}

/-- The command's name in the log. -/
def name : CommandOf E → String
  | pipeTerm => "pipe-term"
  | pipeTermAck => "pipe-term-ack"
  | activateRead => "activate-read"
  | activateWrite _ => "activate-write"
  | hiccup .. => "hiccup"

/-- The command with its writing end given by `f` and its reading end by `g`. -/
def mapEnds {F : Type} (f g : E → F) : CommandOf E → CommandOf F
  | pipeTerm => pipeTerm
  | pipeTermAck => pipeTermAck
  | activateRead => activateRead
  | activateWrite count => activateWrite count
  | hiccup writer retired => hiccup (f writer) (g retired)

end CommandOf

/-- The command as text. -/
def CommandView.describe : CommandView → String
  | .pipeTerm => "PipeTerm"
  | .pipeTermAck => "PipeTermAck"
  | .activateRead => "ActivateRead"
  | .activateWrite count => "ActivateWrite(" ++ toString count ++ ")"
  | .hiccup unflushed idle =>
    "Hiccup \x7b writer: " ++ Queue.describeWriter unflushed ++ ", retired: "
      ++ Queue.describeReader idle ++ " \x7d"

/-! ## Envelopes -/

/-- A command with the pipe it is for. -/
structure EnvelopeOf (E : Type) where
  /-- The pipe addressed. -/
  target : PipeId
  /-- What it is told. -/
  command : CommandOf E
deriving DecidableEq, Repr, Inhabited

/-- An envelope with a command that names queues. -/
abbrev Envelope := EnvelopeOf QueueId

/-- An envelope as it looks from outside. -/
abbrev EnvelopeView := EnvelopeOf Bool

/-- The envelope as text. -/
def EnvelopeView.describe (e : EnvelopeView) : String :=
  "Envelope \x7b target: " ++ e.target.describe ++ ", command: "
    ++ CommandView.describe e.command ++ " \x7d"

end MessagePipe
