import MessagePipe.Link

/-!
# Tasks: driving one side of a pair from a mailbox

A task works as long as it can, then waits for a command, hands it to its pipe, and works again,
until its pipe is taken down or its mailbox ends. The two tasks of the throughput program (§11.5 of
the specification) have this loop in common (`run`); `Behaviour` is what they differ in, and
`Behaviour.poll` lets one of them go on until it would have to wait.

Waiting is the one place where a task gives up its turn, as in the program, where the loop awaits a
command. So a task that is polled runs through: it takes one command after the other (`listen`) and
works after each, until its mailbox has nothing. `Behaviour.patience` bounds how often it can look,
which is once for every command that is there, and once more; the task cannot be sent commands while
it runs, since the other one does not, and `Transfer.Behaviour.Pays.listen` (`Proofs/Turns`) says
so.

A task that ends drops its pipe and its mailbox (`Behaviour.finish`, `Link.leave`), whichever way it
ends: because its pipe was taken down, because its mailbox ended before that, which is logged, or by
a fault.

Out of scope: the runtime that schedules tasks. `Transfer.poll` is one turn, and results hold for
every order of turns.
-/

namespace MessagePipe.Transfer

/-- Where a task stands. -/
inductive Phase where
  /-- It was not polled yet. -/
  | unstarted
  /-- It waits for a command. -/
  | waiting
  /-- It has ended. -/
  | finished
  /-- A fault ended it. -/
  | failed (fault : Fault)
deriving DecidableEq, Repr

/-- A task with its account of what it did. -/
structure Task (σ : Type) where
  /-- Where it stands. -/
  phase : Phase := .unstarted
  /-- Its account so far. -/
  stats : σ

/-- The account of a task that has ended. -/
def Task.result {σ : Type} (t : Task σ) : Option σ :=
  if t.phase = .finished then some t.stats else none

/-- What tasks differ in. -/
structure Behaviour (σ : Type) where
  /-- The task's name in the log. -/
  role : Role
  /-- The side it drives. -/
  side : Side
  /-- What it does before it waits. -/
  work : σ → Link → Except Fault σ × Link
  /-- What an event adds to its account. -/
  hear : σ → Event → σ

namespace Behaviour

variable {σ : Type} (β : Behaviour σ)

/-- Takes the events that came up, and tells whether the pipe was taken down. -/
def takeEvents (stats : σ) (l : Link) : Bool × σ × Link :=
  let (events, l) := l.takeEvents β.side
  let id := (l.side β.side).pipe.id
  (decide (.terminated ∈ events), events.foldl β.hear stats,
    events.foldl (fun l e => l.note (.taken β.role id e)) l)

/-- Ends the task, which drops its pipe and its mailbox. -/
def finish (phase : Phase) (stats : σ) (l : Link) : Task σ × Link :=
  ({ phase, stats }, l.leave β.side)

/-- Takes commands, at most `n`, and works after each, until there is none or the task ends. -/
def listen : Nat → σ → Link → Task σ × Link
  | 0, stats, l => ({ phase := .waiting, stats }, l)
  | n + 1, stats, l =>
    match l.receive β.side with
    | (.nothingYet, l) => ({ phase := .waiting, stats }, l)
    | (.ended, l) => β.finish .finished stats (l.note (.cutOff β.role))
    | (.envelope e, l) =>
      match l.process β.side e.command with
      | ({ result := .error fault, .. }, l) => β.finish (.failed fault) stats l
      | ({ result := .ok _, .. }, l) =>
        match β.takeEvents stats l with
        | (true, stats, l) => β.finish .finished stats l
        | (false, stats, l) =>
          match β.work stats l with
          | (.error fault, l) => β.finish (.failed fault) stats l
          | (.ok stats, l) => listen n stats l

/-- How many times a task can look into its mailbox before it has to wait: once for every command,
and once more (`length_lt_patience`). -/
def patience (l : Link) : Nat :=
  (l.side β.side).inbox.queued.toList.length + 1

/-- Can the task go on? -/
def isReady (t : Task σ) (l : Link) : Bool :=
  match t.phase with
  | .unstarted => true
  | .waiting =>
    match ((l.side β.side).inbox.receive).1 with
    | .nothingYet => false
    | _ => true
  | .finished | .failed _ => false

/-- Lets the task go on until it has to wait, or ends. -/
def poll (t : Task σ) (l : Link) : Task σ × Link :=
  match t.phase with
  | .unstarted =>
    match β.work t.stats l with
    | (.error fault, l) => β.finish (.failed fault) t.stats l
    | (.ok stats, l) => β.listen (β.patience l) stats l
  | .waiting => β.listen (β.patience l) t.stats l
  | .finished | .failed _ => (t, l)

/-- Lets the task go on if it can. -/
def pollIfReady (t : Task σ) (l : Link) : Task σ × Link :=
  if β.isReady t l then β.poll t l else (t, l)

end Behaviour

end MessagePipe.Transfer
