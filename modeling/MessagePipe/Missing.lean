/-!
# Things that are gone

Whoever drives pipes, queues and mailboxes through numbered handles may address a thing that was
never made, was dropped, or was given away in a command. Such a request is refused, and nothing else
happens: no counter moves, no log entry is made, and no other handle is touched.

In the program a value that was moved or dropped cannot be named any more, so there is no such
refusal. It comes from the numbers: `Queue.Ends.step`, `Mailbox.step` and `Exchange.step` take a
number from outside, and answer `missing` where it leads nowhere. The functions that work on the
thing itself (`Queue.serve`, `Mailbox.send`, `Turn.perform`) need no such case.
-/

namespace MessagePipe

/-- A thing that is not there. -/
inductive Missing where
  /-- The pipe was dropped or never made. -/
  | pipe
  /-- The mailbox handle was dropped or never made. -/
  | handle
  /-- The receiving side of the mailbox was dropped. -/
  | inbox
  /-- The writing end of the queue was dropped or given away. -/
  | writer
  /-- The reading end of the queue was dropped or given away. -/
  | reader
deriving DecidableEq, Repr, Inhabited

/-- The refusal for a reader. -/
def Missing.message : Missing → String
  | pipe => "no pipe"
  | handle => "no handle"
  | inbox => "no inbox"
  | writer => "no writer"
  | reader => "no reader"

end MessagePipe
