import MessagePipe.Transfer.Reader
import MessagePipe.Transfer.Writer

/-!
# A transfer: a writing and a reading task taking turns

The two tasks share nothing but the pair. Each goes on until it has to wait, then it is the other
one's turn; the transfer is over when both have ended or neither can go on. This is the throughput
program of §11.5 of the specification, with its two tasks on one runtime, as a function:
`Transfer.run` makes the pair, lets an owner do some calls on it before the tasks take over
(`prepare`), and lets them take turns, `first` before the other, for at most `maxRounds` rounds.

The bound is never reached. `Transfer.effort_le_maxRounds` (`Proofs/Rounds`) says that at the start
it is at least a measure that every round lowers in which a task goes on; so
`Transfer.isOver_of_run` has that neither task can go on at the end, and `Transfer.run_eq_rounds`
that any larger bound gives the same transfer. The order of turns is not fixed either:
`Proofs/Completion` is about every order of polls, and says how a transfer over a fresh pair ends.

`Transfer.poll` lets one task go on if it can, so a poll of a task that waits in vain changes
nothing.

Out of scope: two worker threads running at once, and the figures printed at the end.
-/

namespace MessagePipe

/-- A writing and a reading task over one pair. -/
structure Transfer where
  /-- What is to be sent. -/
  job : Transfer.Job
  /-- The pair. -/
  link : Link
  /-- The writing task. -/
  writer : Transfer.Task Transfer.WriterStats := { stats := {} }
  /-- The reading task. -/
  reader : Transfer.Task Transfer.ReaderStats := { stats := {} }

namespace Transfer

/-- Can a task go on? -/
def isReady (t : Transfer) : Role → Bool
  | .writer => (writing t.job).isReady t.writer t.link
  | .reader => reading.isReady t.reader t.link

/-- Lets a task go on until it has to wait, or ends. -/
def poll (t : Transfer) : Role → Transfer
  | .writer =>
    let (writer, link) := (writing t.job).pollIfReady t.writer t.link
    { t with writer, link }
  | .reader =>
    let (reader, link) := reading.pollIfReady t.reader t.link
    { t with reader, link }

/-- The other role. -/
def opposite : Role → Role
  | .writer => .reader
  | .reader => .writer

/-- Lets the tasks take turns, for at most `n` rounds, until neither can go on. -/
def rounds (first : Role) : Nat → Transfer → Transfer
  | 0, t => t
  | n + 1, t =>
    if t.isReady .writer || t.isReady .reader then
      rounds first n ((t.poll first).poll (opposite first))
    else t

/-- Does calls on the sides of a pair before the tasks take over; what they answer is not used. -/
def prepare (l : Link) (calls : List (Side × Call)) : Link :=
  calls.foldl (fun l (s, c) => (l.call s c).2) l

/-- A bound on the rounds of a transfer. A round in which neither task ends takes a command. For
every message there are two, a wake-up and a report; a call before the tasks take over leaves at
most five more to take, which twelve are more than enough for; and the rest is for the end of the
stream and for the two tasks to start and to end (`effort_le_maxRounds`). -/
def maxRounds (j : Job) (calls : List (Side × Call)) : Nat :=
  2 * j.messages + 12 * calls.length + 16

/-- A transfer over a fresh pair, from the first turn to the end. -/
def run (config : Config) (a b : Link.Plan) (calls : List (Side × Call)) (j : Job)
    (first : Role) : Except Error Transfer :=
  match Link.create config a b with
  | .error e => .error e
  | .ok link =>
    .ok (rounds first (maxRounds j calls) { job := j, link := prepare link calls })

end Transfer

end MessagePipe
