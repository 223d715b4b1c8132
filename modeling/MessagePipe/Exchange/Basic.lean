import MessagePipe.Pipe.Call
import MessagePipe.Queue.Ends
import MessagePipe.Surroundings

/-!
# Exchanges: several owners with the pipes between them

An exchange has owners, each with one mailbox, and any number of pairs of pipes between them. An
owner keeps what arrived in its mailbox as a list of pending commands until it hands them to their
pipes. There are also queues that belong to no pipe, whose ends can be given away in commands.

* `Exchange.create` makes the owners and then the pairs, with numbers in the order they are made.
* `Exchange.use` lets an owner work with a pipe: the pipe's turn, with its effects done to the
  mailbox of the peer's owner, to the events of the pipe, and to the log.
* `Exchange.collect` moves what arrived to the pending commands, owner by owner.
* `Exchange.look` takes what happened since the last look (commands sent, events, the log).

It is to a program that drives pipes by number what a `Link` is to one pair: the pipes are the same
(`Turn`), only what is around them is kept differently. `Proofs/Stations` says what each of the four
operations does to the parts of an exchange. `Proofs/Mirror` shows that an exchange with one pair is
a link, and `Proofs/Settling` that the numbers of pipes are distinct in every exchange there is.

Out of scope: a mailbox shared between pairs on several threads. Here too a step is one whole call.
-/

namespace MessagePipe

/-- An owner with its mailbox. -/
structure Owner where
  /-- The mailbox. -/
  mailbox : Mailbox := .fresh
  /-- The commands that arrived and were not handed on, oldest first. -/
  pending : List Envelope := []

/-- A pipe with the events it passed on. -/
structure Station where
  /-- The pipe. -/
  pipe : Pipe
  /-- The events since the last look, in order. -/
  events : List Event := []

/-- A queue that belongs to no pipe. -/
structure LooseQueue where
  /-- The queue. -/
  id : QueueId
  /-- The ends that were not given away. -/
  held : Queue.Held := {}

/-- Owners and the pipes between them. -/
structure Exchange where
  /-- The owners, by number. -/
  owners : List Owner
  /-- The pipes that are there, by ascending number. -/
  stations : List Station := []
  /-- The pipes whose events somebody receives, those that are gone included. -/
  listened : List PipeId := []
  /-- The contents of all queues. -/
  queues : Queues := .empty
  /-- The queues that belong to no pipe, by number. -/
  loose : List LooseQueue := []
  /-- The first number not used for a queue made outside pipes. -/
  nextLoose : Nat := 0
  /-- The commands that arrived since the last look, with the owner they arrived at. -/
  sent : Array (OwnerId × EnvelopeView) := #[]
  /-- The log since the last look. -/
  log : Log := .empty

namespace Exchange

/-! ## Pipes -/

/-- The station of a pipe. -/
def station? (x : Exchange) (p : PipeId) : Option Station :=
  x.stations.find? fun s => s.pipe.id = p

/-- Replaces the station of a pipe. -/
def putStation (x : Exchange) (s : Station) : Exchange :=
  { x with stations := x.stations.map fun s' => if s'.pipe.id = s.pipe.id then s else s' }

/-- Is somebody receiving the events of a pipe? -/
def isListened (x : Exchange) (p : PipeId) : Bool :=
  x.listened.contains p

/-- The mailbox of an owner. -/
def mailbox (x : Exchange) (o : OwnerId) : Mailbox :=
  (x.owners.getD o {}).mailbox

/-- Replaces the mailbox of an owner. -/
def putMailbox (x : Exchange) (o : OwnerId) (mailbox : Mailbox) : Exchange :=
  { x with owners := x.owners.modify o fun owner => { owner with mailbox } }

/-- Lets a call work with the pipe of station `s`, and does its effects. -/
def use {α : Type} (x : Exchange) (s : Station) (call : Turn → Outcome α) :
    Except Fault α × Exchange :=
  let o := call { pipe := s.pipe, queues := x.queues }
  let done := Surroundings.applyAll
    { mailbox := x.mailbox s.pipe.peerOwner, listening := x.isListened s.pipe.id,
      events := s.events, log := x.log }
    o.turn.pipe o.turn.effects
  let x := x.putStation { s with pipe := o.turn.pipe, events := done.events }
  (o.result, { x.putMailbox s.pipe.peerOwner done.mailbox with
    queues := o.turn.queues, log := done.log })

/-! ## Making an exchange -/

/-- What a pair of pipes is made from. -/
structure PairPlan where
  /-- The owner of the first end. -/
  ownerA : OwnerId
  /-- The owner of the second end. -/
  ownerB : OwnerId
  /-- The settings of the first end. -/
  optionsA : Options
  /-- The settings of the second end. -/
  optionsB : Options
  /-- The event sink of the first end. -/
  sinkA : Option Sink
  /-- The event sink of the second end. -/
  sinkB : Option Sink

/-- Adds a pipe with the given sink, and somebody who receives from it. -/
def addPipe (x : Exchange) (pipe : Pipe) (sink : Option Sink) : Exchange :=
  { x with
    stations := x.stations ++ [{ pipe := { pipe with sink } }]
    listened := if sink.isSome then x.listened ++ [pipe.id] else x.listened }

/-- Adds a pair of pipes, with the numbers `n + 1` and `n + 2`. -/
def addPair (config : Config) (x : Exchange) (n : Nat) (plan : PairPlan) : Except Error Exchange :=
  let a : Pipe.Plan := { id := ⟨n + 1⟩, owner := plan.ownerA, options := plan.optionsA }
  let b : Pipe.Plan := { id := ⟨n + 2⟩, owner := plan.ownerB, options := plan.optionsB }
  match Pipe.pair config a b with
  | .error e => .error e
  | .ok (pipeA, pipeB) =>
    let x := (x.addPipe pipeA plan.sinkA).addPipe pipeB plan.sinkB
    .ok { x with log := x.log.push (.created a.id a.options.hwm b.id b.options.hwm) }

/-- Adds pairs of pipes, numbered on from `n`. -/
def addPairs (config : Config) : Exchange → Nat → List PairPlan → Except Error Exchange
  | x, _, [] => .ok x
  | x, n, plan :: plans =>
    match addPair config x n plan with
    | .error e => .error e
    | .ok x => addPairs config x (n + 2) plans

/-- An exchange with the given number of owners and pairs of pipes between them. -/
def create (config : Config) (owners : Nat) (plans : List PairPlan) : Except Error Exchange :=
  addPairs config { owners := List.replicate owners {} } 0 plans

/-! ## What arrived -/

/-- Moves what arrived at owner `o` to its pending commands. -/
def collectAt (x : Exchange) (o : OwnerId) : Exchange :=
  match (x.mailbox o).drain with
  | ([], _) => x
  | (arrived, mailbox) =>
    { x with
      owners := x.owners.modify o fun owner =>
        { mailbox, pending := owner.pending ++ arrived }
      sent := x.sent ++ arrived.map fun e => (o, Envelope.view x.queues e) }

/-- Moves what arrived anywhere to the pending commands. -/
def collect (x : Exchange) : Exchange :=
  (List.range x.owners.length).foldl collectAt x

/-- What happened since the last look. -/
structure News where
  /-- The commands that arrived, with the owner they arrived at. -/
  sent : Array (OwnerId × EnvelopeView)
  /-- The events of each pipe, by number. -/
  events : List (PipeId × Event)
  /-- The log. -/
  log : List Entry

/-- Takes what happened since the last look. -/
def look (x : Exchange) : News × Exchange :=
  ({ sent := x.sent
     events := x.stations.flatMap fun s => s.events.map fun e => (s.pipe.id, e)
     log := x.log.toList },
    { x with
      sent := #[]
      stations := x.stations.map fun s => { s with events := [] }
      log := .empty })

end Exchange

end MessagePipe
