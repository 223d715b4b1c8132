import MessagePipe.Missing
import MessagePipe.Queue.Request

/-!
# A queue and the ends that are held

Either end of a queue can be dropped at any time; the other one goes on. With the second end the
queue goes, and releases what it still stores, oldest item first, published or not (§3 of the
specification: storage is released when both ends are gone).

* `Ends.drop` drops one end, and gives what the queue releases with it: nothing while the other end
  is held, and everything that is stored once it is not.
* `Ends.perform` does a step whose end is held, `Ends.step` refuses one whose end is not, with what
  is `Missing`.
* `Ends.finish` drops what is left, as happens to a queue nobody needs any more.

In the program the two ends share ownership of the chain of nodes, and the last one to go frees them
one by one; that nothing is freed twice, and nothing is forgotten, is shown for the nodes themselves
in `Proofs/Reclaim`. Here a queue releases its items, so that what becomes of every item can be
told: `Proofs/Custody` balances the items that were written against those read, taken back, stored
and released.

Out of scope: the order in which two threads drop their ends at the same time; either order is a
history.
-/

namespace MessagePipe

universe u

namespace Queue

/-- Which ends of a queue are held. -/
structure Held where
  /-- Is the writing end held? -/
  writer : Bool := true
  /-- Is the reading end held? -/
  reader : Bool := true
deriving DecidableEq, Repr

namespace Held

/-- Is an end held? -/
def has (h : Held) : Side → Bool
  | .writer => h.writer
  | .reader => h.reader

/-- Drops an end. -/
def without (h : Held) : Side → Held
  | .writer => { h with writer := false }
  | .reader => { h with reader := false }

/-- Is neither end held? -/
def isNone (h : Held) : Bool :=
  !h.writer && !h.reader

end Held

/-- The end that is missing, if an end is. -/
def Side.missing : Side → Missing
  | writer => .writer
  | reader => .reader

/-- A queue with the ends that are held. -/
structure Ends (α : Type u) where
  /-- The queue. -/
  queue : Queue α := .empty
  /-- The ends. -/
  held : Held := {}

namespace Ends

variable {α : Type u}

/-- A fresh queue with both ends. -/
def fresh : Ends α := {}

/-- One thing done with the ends of a queue. -/
inductive Step (α : Type u) where
  /-- An operation. -/
  | request (request : Request α)
  /-- Stage items in order. -/
  | writeAll (xs : List α) (incomplete : Bool)
  /-- Take back every item of an open message. -/
  | unwriteAll
  /-- Read until nothing is left. -/
  | readAll
  /-- Show an end. -/
  | describe (side : Side)
  /-- Drop an end. -/
  | drop (side : Side)

/-- The answer to a step. -/
inductive Answer (α : Type u) where
  /-- What the queue responds. -/
  | response (response : Response α)
  /-- Items in the order they were taken. -/
  | items (xs : List α)
  /-- An end as text. -/
  | text (text : String)
  /-- The end is not held. -/
  | missing (missing : Missing)

/-- The end a step needs, if it needs one. -/
def Step.needs : Step α → Option Side
  | request r => some r.side
  | writeAll .. | unwriteAll => some .writer
  | readAll => some .reader
  | describe side => some side
  | drop _ => none

/-- Drops an end that is held; the second one releases all that is stored. -/
def drop (e : Ends α) (side : Side) : List α × Ends α :=
  let held := e.held.without side
  if e.held.has side && held.isNone then (e.queue.items.toList, { queue := .empty, held })
  else ([], { e with held })

/-- Does a step whose end is held. -/
def perform (e : Ends α) : Step α → (Answer α × List α) × Ends α
  | .request r => let (a, queue) := e.queue.serve r; ((.response a, []), { e with queue })
  | .writeAll xs incomplete =>
    ((.response .done, []), { e with queue := e.queue.writeAll (fun _ => incomplete) xs })
  | .unwriteAll => let (xs, queue) := e.queue.unwriteAll; ((.items xs, []), { e with queue })
  | .readAll => let (xs, queue) := e.queue.readAll; ((.items xs, []), { e with queue })
  | .describe .writer => ((.text (describeWriter e.queue.hasUnflushed), []), e)
  | .describe .reader => ((.text (describeReader e.queue.idle), []), e)
  | .drop side =>
    let (released, e') := e.drop side
    ((.response (.flag (e.held.has side)), released), e')

/-- Does a step; the answer comes with the items the queue itself released. -/
def step (e : Ends α) (s : Step α) : (Answer α × List α) × Ends α :=
  match s.needs with
  | some side => if e.held.has side then e.perform s else ((.missing side.missing, []), e)
  | none => e.perform s

/-- Drops the ends that are left, and gives the items released. -/
def finish (e : Ends α) : List α :=
  let (first, e) := e.drop .writer
  first ++ (e.drop .reader).1

/-- Does the writer hold unflushed items? `none` if there is no writer. -/
def unflushed? (e : Ends α) : Option Bool :=
  if e.held.writer then some e.queue.hasUnflushed else none

/-- Has the reader parked? `none` if there is no reader. -/
def idle? (e : Ends α) : Option Bool :=
  if e.held.reader then some e.queue.idle else none

end Ends

end Queue

end MessagePipe
