import MessagePipe.Queue.Basic

/-!
# What can be asked of a queue

A `Request` is one operation of one end, a `Response` its result; `Queue.serve` does it. The writing
end can write, take back, flush, and ask whether anything is unflushed (`write`, `unwrite`, `flush`,
`has_unflushed`); the reading end can ask whether something is there, look at it, and take it
(`check_read`, `probe`, `read`), and it parks where there is nothing, whichever of the three it was.
So a history of a queue is a list of requests, in the order in which the two ends made them.

That operations are data has two uses. Whoever drives a queue that belongs to no pipe does so by
requests (`Queue.Ends`, `Exchange.serveQueue`). And a statement about every history is a statement
about every list: see `Proofs/History`, and `Proofs/Custody` with the steps that drop an end.

`Request.side` is the end a request needs.
-/

namespace MessagePipe

universe u

namespace Queue

/-- The two ends of a queue. -/
inductive Side where
  /-- Stages and publishes. -/
  | writer
  /-- Takes what is published. -/
  | reader
deriving DecidableEq, Repr, Inhabited

/-- An operation of one end. -/
inductive Request (α : Type u) where
  /-- Stage an item. -/
  | write (x : α) (incomplete : Bool)
  /-- Take back the newest item of an open message. -/
  | unwrite
  /-- Publish the complete items staged. -/
  | flush
  /-- Is anything staged? -/
  | hasUnflushed
  /-- Can an item be read? -/
  | checkRead
  /-- Look at the oldest published item. -/
  | probe
  /-- Take the oldest published item. -/
  | read
deriving DecidableEq, Repr

/-- The result of an operation. -/
inductive Response (α : Type u) where
  /-- Nothing to say. -/
  | done
  /-- Yes or no. -/
  | flag (value : Bool)
  /-- An item, or none. -/
  | item (x : Option α)
deriving DecidableEq, Repr

variable {α : Type u}

/-- The end an operation belongs to. -/
def Request.side : Request α → Side
  | write .. | unwrite | flush | hasUnflushed => .writer
  | checkRead | probe | read => .reader

/-- Does an operation. -/
def serve (q : Queue α) : Request α → Response α × Queue α
  | .write x incomplete => (.done, q.write x incomplete)
  | .unwrite => (.item q.unwrite.1, q.unwrite.2)
  | .flush => (.flag q.flush.1, q.flush.2)
  | .hasUnflushed => (.flag q.hasUnflushed, q)
  | .checkRead => (.flag q.checkRead.1, q.checkRead.2)
  | .probe => (.item q.probe.1, q.probe.2)
  | .read => (.item q.read.1, q.read.2)

end Queue

end MessagePipe
