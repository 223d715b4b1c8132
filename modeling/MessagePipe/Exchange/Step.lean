import MessagePipe.Exchange.Delivery

/-!
# The steps of an exchange

A `Step` is one thing an owner or an onlooker does; `Exchange.step` does it, lets commands arrive,
and tells the answer with all that happened. There are steps that call a pipe, steps that hand
commands on or lose them, steps that make a command up and send it or let a pipe take it at once,
steps on queues that belong to no pipe, and steps that only look.

* `Exchange.performAt` is what is done with a pipe, `Exchange.perform` what is done at all. A step
  on a pipe or a queue that is gone is answered with what is `Missing` and changes nothing; a
  command that is handed to a pipe that is gone is used up.
* `writeFrom` and `readFrom` are runs of calls, up to the first that is refused or finds nothing.
* A step that hands a queue end to a pipe takes it from a loose queue, which has it no longer.
* An `Observation` has the answer, the pipe that was addressed as it is afterwards, and the news.

`Exchange.Reached.pump_settles` (`Proofs/Settling`) is about every exchange that steps come to.
`Exchange.Mirrors.step` (`Proofs/Mirror`) says that the steps an owner of a pair can do, and those
by which a pipe is handed a command that came from nowhere, are the steps of a link, with the same
answers and the same news.
-/

namespace MessagePipe

/-- A command from outside; one that replaces a queue carries both ends of a fresh queue. -/
abbrev CommandSketch := CommandOf Unit

namespace Exchange

/-- One thing that is done with a pipe. -/
inductive PipeStep where
  /-- Call it. -/
  | call (call : Call)
  /-- Write frames whose payloads are `stem` with a number behind it, until one is refused. -/
  | writeMany (count : Nat) (stem : String) (more : Bool)
  /-- Read until nothing is left, at most `max` frames. -/
  | readMany (max : Nat)
  /-- Let it take a command that came from nowhere. -/
  | process (command : CommandSketch)
  /-- Let it do what a command asks for, without the command being logged. -/
  | obey (command : CommandSketch)
  /-- Let it take a replacement command with ends of two loose queues. -/
  | hiccupWith (writer retired : Nat)
  /-- Attach an identity. -/
  | setIdentity (bytes : ByteArray)
  /-- Show the identity attached. -/
  | identity
  /-- Register an event sink, if one is given. -/
  | setSink (sink : Option Sink)
  /-- Drop it. -/
  | dropPipe
  /-- Show it. -/
  | info
  /-- Show it as text. -/
  | describe

/-- One thing that is done. -/
inductive Step where
  /-- Hand on the `i`-th pending command of an owner, to the pipe it is for or to another. -/
  | deliver (owner : OwnerId) (i : Nat) (redirect : Option PipeId)
  /-- Lose the oldest pending command of an owner. -/
  | lose (owner : OwnerId)
  /-- Hand on all pending commands. -/
  | pump
  /-- Show the pending commands of an owner. -/
  | pending (owner : OwnerId)
  /-- Drop the receiving side of an owner's mailbox, with the pending commands. -/
  | dropInbox (owner : OwnerId)
  /-- Is the mailbox of an owner closed? -/
  | isClosed (owner : OwnerId)
  /-- Send a command through the mailbox of an owner, to a pipe that has to be there. -/
  | post (owner : OwnerId) (target : PipeId) (command : CommandSketch)
  /-- Stop receiving the events of a pipe, which may be gone. -/
  | dropEvents (pipe : PipeId)
  /-- Make a queue that belongs to no pipe. -/
  | newQueue
  /-- Ask something of a loose queue. -/
  | queue (number : Nat) (request : Queue.Request Frame)
  /-- Do something with a pipe. -/
  | pipe (pipe : PipeId) (step : PipeStep)

/-- The answer to a step. -/
inductive Answer where
  /-- What a pipe replied. -/
  | reply (reply : Reply)
  /-- What a queue responded. -/
  | response (response : Queue.Response Frame)
  /-- Yes or no. -/
  | flag (value : Bool)
  /-- A number. -/
  | count (value : Nat)
  /-- A run of frames. -/
  | batch (frames : List Frame)
  /-- An identity, if there is one. -/
  | identity (identity : Option Identity)
  /-- A text. -/
  | text (text : String)
  /-- Pending commands. -/
  | envelopes (envelopes : List EnvelopeView)
  /-- A pipe. -/
  | pipe (pipe : Pipe)
  /-- There was no pending command. -/
  | noCommand
  /-- A command was handed to a pipe, or lost on the way to it. -/
  | command (pipe : PipeId) (command : CommandView)
  /-- Commands were handed on. -/
  | commands (commands : Array (PipeId × String))
  /-- The command was sent. -/
  | sent
  /-- The request was refused. -/
  | error (error : Error)
  /-- The request breached the terms of use. -/
  | fault (fault : Fault)
  /-- The request addressed something that is gone. -/
  | missing (missing : Missing)

/-- Nothing to say. -/
def Answer.done : Answer := .reply .done

/-- A result or a fault, as an answer. -/
def Answer.ofExcept {α : Type} (f : α → Answer) : Except Fault α → Answer
  | .ok a => f a
  | .error e => .fault e

/-! ## Queues that belong to no pipe -/

/-- Gives a command from outside the queue ends it is to carry. -/
def equip (x : Exchange) (command : CommandSketch) : Command × Exchange :=
  let fresh := fun () => QueueId.loose x.nextLoose
  (command.mapEnds fresh fresh, { x with nextLoose := x.nextLoose + 1 })

/-- Asks something of a loose queue. -/
def serveQueue (x : Exchange) (number : Nat) (request : Queue.Request Frame) :
    Answer × Exchange :=
  match x.loose[number]? with
  | none => (.missing request.side.missing, x)
  | some l =>
    if l.held.has request.side then
      let (response, q) := (x.queues.get l.id).serve request
      (.response response, { x with queues := x.queues.set l.id q })
    else (.missing request.side.missing, x)

/-- Gives an end of a loose queue away. -/
def giveEnd (x : Exchange) (number : Nat) (side : Queue.Side) :
    Except Missing (QueueId × Exchange) :=
  match x.loose[number]? with
  | none => .error side.missing
  | some l =>
    if l.held.has side then
      .ok (l.id, { x with loose := x.loose.set number { l with held := l.held.without side } })
    else .error side.missing

/-! ## Pipes -/

/-- Calls a pipe, if it is there. -/
def call (x : Exchange) (p : PipeId) (call : Call) : Option (Except Fault Reply) × Exchange :=
  match x.station? p with
  | none => (none, x)
  | some s =>
    let (result, x) := x.use s fun t => t.perform call
    (some result, x)

/-- Writes the frames numbered from `i` on, at most `n`, until one is refused; counts those
accepted. -/
def writeFrom (p : PipeId) (stem : String) (more : Bool) : Nat → Nat → Exchange →
    Answer × Exchange
  | 0, i, x => (.count i, x)
  | n + 1, i, x =>
    let frame := (Frame.ofBytes (stem ++ toString i).toUTF8).setMore more
    match x.call p (.write frame) with
    | (some (.ok .accepted), x) => writeFrom p stem more n (i + 1) x
    | (some (.error fault), x) => (.fault fault, x)
    | (_, x) => (.count i, x)

/-- Reads at most `n` frames, until nothing is left; adds them to `frames`, newest first. -/
def readFrom (p : PipeId) : Nat → List Frame → Exchange → Answer × Exchange
  | 0, frames, x => (.batch frames.reverse, x)
  | n + 1, frames, x =>
    match x.call p .read with
    | (some (.ok (.frame frame)), x) => readFrom p n (frame :: frames) x
    | (some (.error fault), x) => (.fault fault, x)
    | (_, x) => (.batch frames.reverse, x)

/-- Does something with the pipe of station `s`. -/
def performAt (x : Exchange) (s : Station) : PipeStep → Answer × Exchange
  | .call call =>
    let (result, x) := x.use s fun t => t.perform call
    (.ofExcept .reply result, x)
  | .writeMany count stem more => writeFrom s.pipe.id stem more count 0 x
  | .readMany max => readFrom s.pipe.id max [] x
  | .process command =>
    let (command, x) := x.equip command
    let (result, x) := x.process s command
    (.ofExcept (fun _ => .done) result, x)
  | .obey command =>
    let (command, x) := x.equip command
    let (result, x) := x.use s fun t => t.obey command
    (.ofExcept (fun _ => .done) result, x)
  | .hiccupWith writer retired =>
    match x.giveEnd writer .writer with
    | .error missing => (.missing missing, x)
    | .ok (writer, x') =>
      match x'.giveEnd retired .reader with
      | .error missing => (.missing missing, x)
      | .ok (retired, x') =>
        let (result, x) := x'.process s (.hiccup writer retired)
        (.ofExcept (fun _ => .done) result, x)
  | .setIdentity bytes =>
    match Identity.ofBytes bytes with
    | .error e => (.error e, x)
    | .ok identity =>
      match s.pipe.setIdentity identity with
      | .error fault => (.fault fault, x)
      | .ok pipe => (.done, x.putStation { s with pipe })
  | .identity => (.identity s.pipe.identity, x)
  | .setSink none => (.done, x)
  | .setSink (some sink) =>
    match s.pipe.setSink sink with
    | .error fault => (.fault fault, x)
    | .ok pipe =>
      let x := x.putStation { s with pipe }
      (.done, { x with listened := x.listened ++ [pipe.id] })
  | .dropPipe => (.flag true, { x with stations := x.stations.filter (·.pipe.id ≠ s.pipe.id) })
  | .info => (.pipe s.pipe, x)
  | .describe => (.text s.pipe.describe, x)

/-- What is answered for a pipe that is not there. -/
def PipeStep.withoutPipe : PipeStep → Answer
  | dropPipe => .flag false
  | _ => .missing .pipe

/-! ## Steps -/

/-- The answer to handing on a command. -/
def Delivery.answer : Delivery → Answer
  | .empty => .noCommand
  | .noPipe => .missing .pipe
  | .done pipe command => .command pipe command
  | .fault _ breach => .fault breach

/-- The pipe a command was handed to. -/
def Delivery.pipe? : Delivery → Option PipeId
  | .done pipe _ | .fault pipe _ => some pipe
  | .empty | .noPipe => none

/-- Sends a command through the mailbox of an owner. That the pipe is there is asked first, so a
command for one that is gone is not sent and says nothing of the mailbox. -/
def post (x : Exchange) (owner : OwnerId) (target : PipeId) (command : CommandSketch) :
    Answer × Exchange :=
  match x.station? target with
  | none => (.missing .pipe, x)
  | some _ =>
    let (command, x) := x.equip command
    match (x.mailbox owner).send { target, command } with
    | .error e => (.error e, x)
    | .ok mailbox => (.sent, x.putMailbox owner mailbox)

/-- Does a step; the answer comes with the pipe that was addressed. -/
def perform (x : Exchange) : Step → (Answer × Option PipeId) × Exchange
  | .deliver owner i redirect =>
    let (delivery, x) := x.deliver owner i redirect
    ((delivery.answer, delivery.pipe?), x)
  | .lose owner =>
    match x.takePending owner 0 with
    | none => ((.noCommand, none), x)
    | some (e, x) => ((.command e.target (Command.view x.queues e.command), none), x)
  | .pump =>
    let (result, x) := x.pump
    ((.ofExcept .commands result, none), x)
  | .pending owner =>
    ((.envelopes ((x.owners.getD owner {}).pending.map (Envelope.view x.queues)), none), x)
  | .dropInbox owner =>
    ((.flag (x.mailbox owner).receiving, none),
      { x with owners := x.owners.modify owner fun o => { mailbox := o.mailbox.close } })
  | .isClosed owner => ((.flag (x.mailbox owner).isClosed, none), x)
  | .post owner target command =>
    let (answer, x) := x.post owner target command
    ((answer, none), x)
  | .dropEvents p =>
    ((.flag (x.isListened p), some p), { x with listened := x.listened.filter (· ≠ p) })
  | .newQueue =>
    ((.count x.loose.length, none),
      { x with loose := x.loose ++ [{ id := .loose x.nextLoose }], nextLoose := x.nextLoose + 1 })
  | .queue number request =>
    let (answer, x) := x.serveQueue number request
    ((answer, none), x)
  | .pipe p step =>
    match x.station? p with
    | none => ((step.withoutPipe, none), x)
    | some s =>
      let (answer, x) := x.performAt s step
      ((answer, some p), x)

/-- The answer to a step, with all that happened. -/
structure Observation where
  /-- The answer. -/
  answer : Answer
  /-- The pipe that was addressed, as it is now, if it is still there. -/
  pipe : Option Pipe
  /-- What happened. -/
  news : News

/-- Does a step, lets commands arrive, and takes what happened. -/
def step (x : Exchange) (s : Step) : Observation × Exchange :=
  let ((answer, addressed), x) := x.perform s
  let (news, x) := x.collect.look
  ({ answer, pipe := addressed.bind fun p => (x.station? p).map Station.pipe, news }, x)

end Exchange

end MessagePipe
