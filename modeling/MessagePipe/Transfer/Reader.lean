import MessagePipe.Transfer.Task

/-!
# The reading task

It reads whatever there is to read, until the other side has terminated the pair (`ReaderTask`,
§11.5 of the specification). It never asks to terminate itself: it reads the delimiter, which makes
its pipe acknowledge, and ends when its pipe is taken down.

* `readFrames` reads and counts frames until there is none. Its fuel is `readable`, the number of
  items stored in the inbound queue and one more: a read takes an item or finds nothing, and the
  last one finds nothing. `Transfer.readFrames_of_readable_le` (`Proofs/Reading`) says that any
  larger fuel gives the same, so it is a loop that runs until nothing is left.
* `ReaderStats.add` counts frames, bytes, and the messages by their last frames.
* `reading` is the behaviour of the task. Of the events it takes, `readActivated` counts as a
  wake-up.
-/

namespace MessagePipe.Transfer

/-- The account of the reading task. -/
structure ReaderStats where
  /-- Messages read. -/
  messages : Nat := 0
  /-- Frames read. -/
  frames : Nat := 0
  /-- Bytes read. -/
  bytes : Nat := 0
  /-- How often the task was woken to read. -/
  wakeups : Nat := 0
deriving DecidableEq, Repr

/-- Counts a frame. -/
def ReaderStats.add (stats : ReaderStats) (f : Frame) : ReaderStats :=
  { stats with
    frames := stats.frames + 1
    bytes := stats.bytes + f.size
    messages := if f.hasMore then stats.messages else stats.messages + 1 }

/-- Reads frames, at most `n`, until nothing is left. -/
def readFrames : Nat → ReaderStats → Link → Except Fault ReaderStats × Link
  | 0, stats, l => (.ok stats, l)
  | n + 1, stats, l =>
    match l.call .b .read with
    | ({ result := .ok (.frame f), .. }, l) => readFrames n (stats.add f) l
    | ({ result := .ok _, .. }, l) => (.ok stats, l)
    | ({ result := .error fault, .. }, l) => (.error fault, l)

/-- How many times a frame can be read from the second side, and once more to find none
(`readFrames_of_readable_le`). -/
def readable (l : Link) : Nat :=
  match l.b.pipe.inbound with
  | none => 1
  | some id => (l.queues.get id).back - (l.queues.get id).front + 1

/-- The reading task, on the second side. -/
def reading : Behaviour ReaderStats where
  role := .reader
  side := .b
  work stats l := readFrames (readable l) stats l
  hear stats e :=
    if e = .readActivated then { stats with wakeups := stats.wakeups + 1 } else stats

end MessagePipe.Transfer
