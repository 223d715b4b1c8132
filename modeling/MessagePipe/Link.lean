import MessagePipe.Pipe.Call
import MessagePipe.Surroundings

/-!
# Links: one pair of pipes, with the mailboxes of its two owners

A `Link` is all there is to one pair: two endpoints, each with its owner's mailbox and what its sink
passed on, and the queues between them. Its owners call their endpoint and hand it the commands that
arrived, in order; `Link.step` does one such thing, `Link.run` any number of them. This is the
setting of §5 of the specification, two owners and one pair, with every interleaving of what they do
as a list of steps.

* `Link.create` makes a pair (`pipepair`) with two fresh mailboxes; the ends are numbered 1 and 2,
  and the owners 0 and 1.
* `Link.call` and `Link.process` let the pipe of one side work (`Link.turn`) and do its effects
  (`Link.settle`). A `Report` has the result with the effects, so what a step did beyond its answer
  can be read off it.
* `Link.receive`, `Link.takeEvents`, `Link.closeInbox` and `Link.leave` are what an owner does with
  its own mailbox and events. An owner that closes its mailbox takes no further command, and the
  peer's commands are lost.

The section on what a turn changes says of each part of a link what `settle` does to it; nothing
later unfolds `settle` again.

All results about pairs are stated on links, through `Link.Run` (`Proofs/Run`). A program with
several owners and pairs is an `Exchange`; that one with a single pair behaves like the link is
shown in `Proofs/Mirror`.

Out of scope: owners on two threads. A step is a whole call of one owner, so calls do not overlap.
-/

namespace MessagePipe

/-- The two sides of a pair. -/
inductive Side where
  /-- The first endpoint. -/
  | a
  /-- The second endpoint. -/
  | b
deriving DecidableEq, Repr, Inhabited

namespace Side

/-- The opposite side. -/
def other : Side → Side
  | a => b
  | b => a

/-- The number of the endpoint of a side. -/
def id : Side → PipeId
  | a => ⟨1⟩
  | b => ⟨2⟩

/-- The number of the owner of a side. -/
def owner : Side → OwnerId
  | a => 0
  | b => 1

end Side

/-- One side of a pair. -/
structure Endpoint where
  /-- The pipe. -/
  pipe : Pipe
  /-- The mailbox of the pipe's owner; the peer holds its only handle. -/
  inbox : Mailbox := .fresh
  /-- Is somebody receiving from the pipe's sink? -/
  listening : Bool
  /-- The events passed on and not taken, in order. -/
  events : List Event := []

/-- One pair of pipes. -/
structure Link where
  /-- The first side. -/
  a : Endpoint
  /-- The second side. -/
  b : Endpoint
  /-- The contents of all queues. -/
  queues : Queues := .empty
  /-- The log, in order. -/
  log : Log := .empty

namespace Link

/-- One side of the pair. -/
def side (l : Link) : Side → Endpoint
  | .a => l.a
  | .b => l.b

/-- Replaces one side of the pair. -/
def put (l : Link) (s : Side) (e : Endpoint) : Link :=
  match s with
  | .a => { l with a := e }
  | .b => { l with b := e }

/-- Makes an entry in the log. -/
def note (l : Link) (entry : Entry) : Link :=
  { l with log := l.log.push entry }

/-- The settings of one side of a pair. -/
structure Plan where
  /-- The settings of the pipe. -/
  options : Options
  /-- Where its events go. -/
  sink : Option Sink := some .channel

/-- A fresh side. -/
def newEndpoint (pipe : Pipe) (sink : Option Sink) : Endpoint :=
  { pipe := { pipe with sink }, listening := sink.isSome }

/-- A fresh pair. -/
def create (config : Config) (a b : Plan) : Except Error Link :=
  match Pipe.pair config
    { id := Side.a.id, owner := Side.a.owner, options := a.options }
    { id := Side.b.id, owner := Side.b.owner, options := b.options } with
  | .error e => .error e
  | .ok (pipeA, pipeB) =>
    .ok { a := newEndpoint pipeA a.sink
          b := newEndpoint pipeB b.sink
          log := .ofList [.created Side.a.id a.options.hwm Side.b.id b.options.hwm] }

/-! ## Working with a side -/

/-- The turn of the pipe of one side. -/
def turn (l : Link) (s : Side) : Turn :=
  { pipe := (l.side s).pipe, queues := l.queues }

/-- The pair after a turn of the pipe of one side, with the effects done. -/
def settle (l : Link) (s : Side) (t : Turn) : Link :=
  let own := l.side s
  let peer := l.side s.other
  let done := Surroundings.applyAll
    { mailbox := peer.inbox, listening := own.listening, events := own.events, log := l.log }
    t.pipe t.effects
  { (l.put s { own with pipe := t.pipe, events := done.events }).put s.other
      { peer with inbox := done.mailbox } with
    queues := t.queues, log := done.log }

/-- What an owner's step came to. -/
structure Report where
  /-- The reply, or the fault that ended the step. -/
  result : Except Fault Reply := .ok .done
  /-- What the pipe did beyond that. -/
  effects : List Effect := []

/-- Calls the pipe of one side. -/
def call (l : Link) (s : Side) (c : Call) : Report × Link :=
  let o := (l.turn s).perform c
  ({ result := o.result, effects := o.turn.effects }, l.settle s o.turn)

/-- Lets the pipe of one side take a command. -/
def process (l : Link) (s : Side) (c : Command) : Report × Link :=
  let o := (l.turn s).process c
  ({ result := o.result.map fun _ => .done, effects := o.turn.effects }, l.settle s o.turn)

/-- Registers the event sink of the pipe of one side, which somebody receives from. -/
def setSink (l : Link) (s : Side) (sink : Sink) : Report × Link :=
  match (l.side s).pipe.setSink sink with
  | .error fault => ({ result := .error fault }, l)
  | .ok pipe => ({}, l.put s { l.side s with pipe, listening := true })

/-- Attaches the identity of the pipe of one side. -/
def setIdentity (l : Link) (s : Side) (identity : Identity) : Report × Link :=
  match (l.side s).pipe.setIdentity identity with
  | .error fault => ({ result := .error fault }, l)
  | .ok pipe => ({}, l.put s { l.side s with pipe })

/-- Takes the next thing from the mailbox of one side. -/
def receive (l : Link) (s : Side) : Received × Link :=
  match (l.side s).inbox.receive with
  | (received, inbox) => (received, l.put s { l.side s with inbox })

/-- Takes the events the sink of one side passed on. -/
def takeEvents (l : Link) (s : Side) : List Event × Link :=
  ((l.side s).events, l.put s { l.side s with events := [] })

/-- Drops the receiving side of the mailbox of one side. -/
def closeInbox (l : Link) (s : Side) : Link :=
  l.put s { l.side s with inbox := (l.side s).inbox.close }

/-- Drops the pipe of one side, and the receiving side of its owner's mailbox. -/
def leave (l : Link) (s : Side) : Link :=
  let l := l.closeInbox s
  l.put s.other { l.side s.other with inbox := (l.side s.other).inbox.dropHandle 0 }

/-! ## What a turn of one side changes -/

@[simp] theorem side_put_self (l : Link) (s : Side) (e : Endpoint) : (l.put s e).side s = e := by
  cases s <;> rfl

@[simp] theorem side_put_other (l : Link) (s : Side) (e : Endpoint) :
    (l.put s e).side s.other = l.side s.other := by
  cases s <;> rfl

@[simp] theorem side_put_of_other (l : Link) (s : Side) (e : Endpoint) :
    (l.put s.other e).side s = l.side s := by
  cases s <;> rfl

@[simp] theorem queues_put (l : Link) (s : Side) (e : Endpoint) :
    (l.put s e).queues = l.queues := by
  cases s <;> rfl

@[simp] theorem queues_settle (l : Link) (s : Side) (t : Turn) :
    (l.settle s t).queues = t.queues := rfl

@[simp] theorem pipe_settle_self (l : Link) (s : Side) (t : Turn) :
    ((l.settle s t).side s).pipe = t.pipe := by
  cases s <;> rfl

@[simp] theorem pipe_settle_other (l : Link) (s : Side) (t : Turn) :
    ((l.settle s t).side s.other).pipe = (l.side s.other).pipe := by
  cases s <;> rfl

@[simp] theorem inbox_settle_self (l : Link) (s : Side) (t : Turn) :
    ((l.settle s t).side s).inbox = (l.side s).inbox := by
  cases s <;> rfl

/-- The commands of a turn arrive at the other side, behind those that arrived before. -/
theorem queued_settle_other (l : Link) (s : Side) (t : Turn)
    (h : (l.side s.other).inbox.receiving = true) :
    ((l.settle s t).side s.other).inbox.queued.toList =
      (l.side s.other).inbox.queued.toList ++
        t.posted.map fun command => { target := t.pipe.peer, command } := by
  have := Surroundings.queued_applyAll
    { mailbox := (l.side s.other).inbox, listening := (l.side s).listening,
      events := (l.side s).events, log := l.log } t.pipe t.effects h
  cases s <;> exact this

/-- A mailbox that was closed stays as it is. -/
theorem inbox_settle_other_of_closed (l : Link) (s : Side) (t : Turn)
    (h : (l.side s.other).inbox.receiving = false) :
    ((l.settle s t).side s.other).inbox = (l.side s.other).inbox := by
  have := Surroundings.mailbox_applyAll_of_closed
    { mailbox := (l.side s.other).inbox, listening := (l.side s).listening,
      events := (l.side s).events, log := l.log } t.pipe t.effects h
  cases s <;> exact this

@[simp] theorem receiving_settle (l : Link) (s s' : Side) (t : Turn) :
    ((l.settle s t).side s').inbox.receiving = (l.side s').inbox.receiving := by
  have := Surroundings.receiving_applyAll
    { mailbox := (l.side s.other).inbox, listening := (l.side s).listening,
      events := (l.side s).events, log := l.log } t.pipe t.effects
  cases s with
  | a =>
    cases s' with
    | a => rfl
    | b => exact this
  | b =>
    cases s' with
    | a => exact this
    | b => rfl

@[simp] theorem listening_settle (l : Link) (s s' : Side) (t : Turn) :
    ((l.settle s t).side s').listening = (l.side s').listening := by
  cases s <;> cases s' <;> rfl

@[simp] theorem events_settle_other (l : Link) (s : Side) (t : Turn) :
    ((l.settle s t).side s.other).events = (l.side s.other).events := by
  cases s <;> rfl

/-- What a side passes on comes behind what was passed on before. -/
theorem events_settle_self (l : Link) (s : Side) (t : Turn) :
    ((l.settle s t).side s).events =
      (l.side s).events ++ t.events.filter (t.pipe.passes (l.side s).listening) := by
  have := Surroundings.events_applyAll
    { mailbox := (l.side s.other).inbox, listening := (l.side s).listening,
      events := (l.side s).events, log := l.log } t.pipe t.effects
  cases s <;> exact this

@[simp] theorem put_side (l : Link) (s : Side) : l.put s (l.side s) = l := by
  cases s <;> rfl

/-! ## Steps and runs -/

/-- One thing an owner does. -/
inductive Step where
  /-- Call the pipe of a side. -/
  | call (side : Side) (call : Call)
  /-- Register the event sink of a side. -/
  | setSink (side : Side) (sink : Sink)
  /-- Attach the identity of a side. -/
  | setIdentity (side : Side) (identity : Identity)
  /-- Hand the oldest command that arrived to the pipe of a side. -/
  | deliver (side : Side)
  /-- Drop the receiving side of a mailbox. -/
  | closeInbox (side : Side)
deriving DecidableEq

/-- Does one thing. -/
def step (l : Link) : Step → Report × Link
  | .call s c => l.call s c
  | .setSink s sink => l.setSink s sink
  | .setIdentity s identity => l.setIdentity s identity
  | .deliver s =>
    match l.receive s with
    | (.envelope e, l) => l.process s e.command
    | (_, _) => ({}, l)
  | .closeInbox s => ({}, l.closeInbox s)

/-- Does one thing after the other. -/
def run (l : Link) : List Step → List Report × Link
  | [] => ([], l)
  | s :: steps =>
    let (report, l) := l.step s
    let (reports, l) := l.run steps
    (report :: reports, l)

end Link

end MessagePipe
