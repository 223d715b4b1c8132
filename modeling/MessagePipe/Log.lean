import MessagePipe.Chain
import MessagePipe.Error
import MessagePipe.Event
import MessagePipe.Handshake

/-!
# The log

Everything a pipe does beyond passing frames leaves an entry, at the levels §10.2 of the
specification gives: a *trace* for every command sent and received, *debug* for transitions,
rollbacks, replaced queues and what was dropped when a pipe was taken down, a *warning* where a
command or an event is lost. The two tasks of a transfer add what they take and when they are done.

An `Entry` is an entry as a value, with all that its text depends on; `Entry.level` and `Entry.text`
read it, `Entry.line` is the line a logger prints. That entries are data lets a proof speak of them:
`Surroundings.log_applyAll` says which ones a call makes, `Proofs/Entries` that a pipe makes none of
a task's, and `Proofs/Breaches` that a breach leaves one entry and nothing else.

Out of scope: filters, time stamps, and the throughput figures that are printed at the end.
-/

namespace MessagePipe

/-- The importance of an entry. -/
inductive Level where
  /-- Every command sent and received. -/
  | trace
  /-- Changes of state. -/
  | debug
  /-- Milestones of a task. -/
  | info
  /-- Something was lost. -/
  | warn
deriving DecidableEq, Repr, Inhabited

/-- The level as one word. -/
def Level.name : Level → String
  | .trace => "TRACE"
  | .debug => "DEBUG"
  | .info => "INFO"
  | .warn => "WARN"

/-- Which of the two sides of a transfer a task is. -/
inductive Role where
  /-- The side that sends. -/
  | writer
  /-- The side that receives. -/
  | reader
deriving DecidableEq, Repr, Inhabited

/-- The role as one word. -/
def Role.name : Role → String
  | .writer => "Writer"
  | .reader => "Reader"

/-- An entry of the log. -/
inductive Entry where
  /-- A pair was made; each end with the number of messages that may be in flight towards it. -/
  | created (a : PipeId) (hwmA : UInt64) (b : PipeId) (hwmB : UInt64)
  /-- A command goes to the peer. -/
  | sent (pipe peer : PipeId) (command : String)
  /-- A command from the peer is obeyed. -/
  | received (pipe peer : PipeId) (command : String)
  /-- A command could not be sent. -/
  | unsent (pipe : PipeId) (command : String) (peer : PipeId) (cause : Error)
  /-- The handshake went on. -/
  | transition (pipe : PipeId) (before after : State) (signal : Signal)
  /-- Fragments of an open message were taken back. -/
  | rolledBack (pipe : PipeId) (count : Nat)
  /-- The inbound queue was replaced. -/
  | replaced (pipe : PipeId)
  /-- The peer's replacement was not followed. -/
  | ignored (pipe : PipeId)
  /-- The peer's replacement was followed. -/
  | moved (pipe : PipeId) (count : Nat)
  /-- The endpoint was taken down with frames unread. -/
  | deallocated (pipe : PipeId) (count : Nat)
  /-- An event had no sink to go to. -/
  | noSink (pipe : PipeId) (event : Event)
  /-- An event went to a sink nobody receives from. -/
  | eventLost (pipe : PipeId) (event : Event)
  /-- A task took an event. -/
  | taken (role : Role) (pipe : PipeId) (event : Event)
  /-- The writing task has sent everything. -/
  | done (count : Nat)
  /-- The mailbox of a task ended before its pipe did. -/
  | cutOff (role : Role)
deriving DecidableEq, Repr, Inhabited

namespace Entry

/-- The entry's importance. -/
def level : Entry → Level
  | sent .. | received .. => .trace
  | done .. => .info
  | unsent .. | noSink .. | eventLost .. | cutOff .. => .warn
  | _ => .debug

/-- What the entry says. -/
def text : Entry → String
  | created a hwmA b hwmB =>
    "Pipe pair created: " ++ a.label ++ " (hwm " ++ toString hwmA ++ ") <-> " ++ b.label
      ++ " (hwm " ++ toString hwmB ++ ")"
  | sent pipe peer command => pipe.label ++ " -> " ++ peer.label ++ ": " ++ command
  | received pipe peer command => pipe.label ++ " <- " ++ peer.label ++ ": " ++ command
  | unsent pipe command peer cause =>
    pipe.label ++ " could not send " ++ command ++ " to " ++ peer.label ++ ": " ++ cause.message
  | transition pipe before after signal =>
    pipe.label ++ " " ++ before.name ++ " -> " ++ after.name ++ " on " ++ signal.describe
  | rolledBack pipe count =>
    pipe.label ++ " rolled back " ++ toString count ++ " fragments"
  | replaced pipe => pipe.label ++ " hiccup, new inbound queue"
  | ignored pipe => pipe.label ++ " ignored hiccup, outbound already released"
  | moved pipe count =>
    pipe.label ++ " hiccup, " ++ toString count ++ " frames moved to the new queue"
  | deallocated pipe count =>
    pipe.label ++ " deallocated, " ++ toString count ++ " unread frames dropped"
  | noSink pipe event =>
    pipe.label ++ " has no event sink, " ++ event.describe pipe ++ " dropped"
  | eventLost pipe event => "Event receiver dropped, " ++ event.describe pipe ++ " lost"
  | taken role pipe event => role.name ++ " event: " ++ event.describe pipe
  | done count => "Writer done after " ++ toString count ++ " messages, terminating"
  | cutOff role => role.name ++ " mailbox closed before termination"

/-- The entry as a line. -/
def line (e : Entry) : String :=
  e.level.name ++ " " ++ e.text

end Entry

/-- Entries in the order they were made. -/
abbrev Log := Chain Entry

end MessagePipe
