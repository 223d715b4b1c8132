import MessagePipe.Command
import MessagePipe.Error

/-!
# Mailboxes

Every owner has one mailbox (`mailbox`, `Mailbox`, `MailboxReceiver`; §6 of the specification). Many
handles may send to it, and sending never blocks; the owner receives in order. A mailbox closes for
senders when the owner drops the receiving side, and with it what was not received; it ends for the
owner once every handle is gone and everything that was sent is received.

In the program a mailbox is an unbounded channel with several senders. Here it is the envelopes that
were sent and not received, in order, with the handles that are still held and a flag for the
receiving side. `receive` gives the three answers a receiver can get: an envelope, nothing yet, or
the end. A task that waits for a command is one that got *nothing yet*, so waiting needs no further
notion. `drain` takes everything at once, as an owner does who collects what arrived.

What the two sides of the channel promise each other is proved in `Proofs/Mailboxes`: received in
the order sent, nothing accepted and nothing given once it is closed, and the end is final.

Out of scope: wake-ups of a blocked receiver, and senders on several threads at once. A history of a
mailbox is a list of steps, which is the order the channel puts them in.
-/

namespace MessagePipe

/-- The mailbox of an owner. -/
structure Mailbox where
  /-- What was sent and not received, oldest first. -/
  queued : Chain Envelope := .empty
  /-- For each handle ever made, in order: is it still held? -/
  handles : List Bool := [true]
  /-- Is the receiving side still there? -/
  receiving : Bool := true

/-- What an owner finds in its mailbox. -/
inductive Received where
  /-- The oldest envelope. -/
  | envelope (e : Envelope)
  /-- Nothing yet, but a handle is left that may send. -/
  | nothingYet
  /-- Nothing, ever again. -/
  | ended
deriving DecidableEq, Repr, Inhabited

namespace Mailbox

/-- A mailbox with one handle. -/
def fresh : Mailbox := {}

instance : Inhabited Mailbox := ⟨fresh⟩

/-! ## The sending side -/

/-- Can nothing be sent any more? -/
def isClosed (m : Mailbox) : Bool :=
  !m.receiving

/-- Adds an envelope, unless the receiving side is gone. -/
def send (m : Mailbox) (e : Envelope) : Except Error Mailbox :=
  if m.receiving then .ok { m with queued := m.queued.push e } else .error .mailboxClosed

/-- Is a handle held? -/
def holds (m : Mailbox) (handle : Nat) : Bool :=
  m.handles.getD handle false

/-- Makes a further handle, with the next number. -/
def addHandle (m : Mailbox) : Mailbox :=
  { m with handles := m.handles ++ [true] }

/-- Gives a handle up. -/
def dropHandle (m : Mailbox) (handle : Nat) : Mailbox :=
  { m with handles := m.handles.set handle false }

/-! ## The receiving side -/

/-- Takes the oldest envelope. -/
def receive (m : Mailbox) : Received × Mailbox :=
  match m.queued.pop? with
  | some (e, queued) => (.envelope e, { m with queued })
  | none => (if m.handles.any id then .nothingYet else .ended, m)

/-- Gives the receiving side up, with all that was not received. -/
def close (m : Mailbox) : Mailbox :=
  { m with queued := .empty, receiving := false }

/-- Takes everything that was sent. -/
def drain (m : Mailbox) : List Envelope × Mailbox :=
  (m.queued.toList, { m with queued := .empty })

end Mailbox

end MessagePipe
