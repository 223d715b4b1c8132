import MessagePipe.Pipe.Hiccup
import MessagePipe.Pipe.Termination

/-!
# Obeying the commands of the peer

`Turn.process` (`process_command`) is what an endpoint does with a command: it enters the command in
the log and hands it to the operation for its kind (§11.4 of the specification). An owner may also
call these operations directly, which `Turn.obey` stands for; it is the same without the entry.

Two of the operations are here (§4.3):

* `processActivateRead` (`process_activate_read`): an endpoint that had run dry and is readable
  looks again, and its owner is notified. Whether the queue holds anything is not asked, so a
  wake-up that is out of date notifies too (`Proofs/ReadNotice`).
* `processActivateWrite` (`process_activate_write`): the count of the peer is taken as it is told,
  also a smaller one, and an endpoint that had closed itself in `active` is opened, and its owner
  notified. Whether there is room now is not asked either; the next `checkWrite` does.

Of the five commands only those of the termination handshake can be a breach of the terms of use.
Which ones are, in which states, is in `Proofs/Breaches`.
-/

namespace MessagePipe.Turn

/-- The peer published messages to the inbound queue while its reader had parked. -/
def processActivateRead (t : Turn) : Turn :=
  if !t.pipe.inActive && t.pipe.state.isReadable then
    (t.withPipe { t.pipe with inActive := true }).notify .readActivated
  else t

/-- The peer has read `count` messages in total. -/
def processActivateWrite (t : Turn) (count : Nat) : Turn :=
  if !t.pipe.outActive && t.pipe.state == .active then
    (t.withPipe { t.pipe with peersMsgsRead := count, outActive := true }).notify .writeActivated
  else t.withPipe { t.pipe with peersMsgsRead := count }

/-- Does what a command asks for. -/
def obey (t : Turn) : Command → Outcome Unit
  | .pipeTerm => t.processPipeTerm
  | .pipeTermAck => t.processPipeTermAck
  | .activateRead => t.processActivateRead.answer ()
  | .activateWrite count => (t.processActivateWrite count).answer ()
  | .hiccup writer retired => (t.processHiccup writer retired).answer ()

/-- Takes a command of the peer: enters it in the log and does what it asks for. -/
def process (t : Turn) (command : Command) : Outcome Unit :=
  (t.note (.received t.pipe.id t.pipe.peer command.name)).obey command

end MessagePipe.Turn
