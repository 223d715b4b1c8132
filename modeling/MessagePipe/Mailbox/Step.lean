import MessagePipe.Mailbox
import MessagePipe.Missing

/-!
# Working with a mailbox through numbered handles

A `Mailbox.Step` is one thing a holder of a handle or the owner does, and `Mailbox.step` does it:
make a further handle (a clone of one that is held), drop a handle, ask whether anything can still
be sent (`is_closed`), send, drop the receiving side, or take the oldest envelope (`try_recv`).

Handles are numbered in the order they were made, and a number is never used again. A handle that
was dropped, and a receiving side that is gone, are refused with what is `Missing`, before anything
else is looked at; whether a mailbox is closed is another question, which a handle that is held may
ask at any time.

The laws of histories of steps are in `Proofs/Mailboxes`.
-/

namespace MessagePipe.Mailbox

/-- One thing done with a mailbox. -/
inductive Step where
  /-- Make a further handle from one that is held. -/
  | clone (handle : Nat)
  /-- Drop a handle. -/
  | dropHandle (handle : Nat)
  /-- Can nothing be sent through a handle any more? -/
  | isClosed (handle : Nat)
  /-- Send through a handle. -/
  | send (handle : Nat) (envelope : Envelope)
  /-- Drop the receiving side. -/
  | dropInbox
  /-- Take the oldest envelope. -/
  | receive
deriving DecidableEq, Repr

/-- The answer to a step. -/
inductive Answer where
  /-- Yes or no. -/
  | flag (value : Bool)
  /-- The number of a handle. -/
  | handle (number : Nat)
  /-- The envelope was sent. -/
  | sent
  /-- What was found. -/
  | received (received : Received)
  /-- The envelope was refused. -/
  | error (error : Error)
  /-- What was addressed is gone. -/
  | missing (missing : Missing)
deriving DecidableEq, Repr

/-- Lets `f` answer for a handle that is held. -/
def withHandle (m : Mailbox) (handle : Nat) (f : Answer × Mailbox) : Answer × Mailbox :=
  if m.holds handle then f else (.missing .handle, m)

/-- Does a step. -/
def step (m : Mailbox) : Step → Answer × Mailbox
  | .clone handle => m.withHandle handle (.handle m.handles.length, m.addHandle)
  | .dropHandle handle => (.flag (m.holds handle), m.dropHandle handle)
  | .isClosed handle => m.withHandle handle (.flag m.isClosed, m)
  | .send handle envelope =>
    m.withHandle handle <|
      match m.send envelope with
      | .ok m => (.sent, m)
      | .error e => (.error e, m)
  | .dropInbox => (.flag m.receiving, m.close)
  | .receive =>
    if m.receiving then
      let (received, m) := m.receive
      (.received received, m)
    else (.missing .inbox, m)

end MessagePipe.Mailbox
