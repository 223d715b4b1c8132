import MessagePipe.Fault
import MessagePipe.Log
import MessagePipe.Pipe.Basic
import MessagePipe.Queue.Table

/-!
# Turns: an endpoint at work

While an owner works with an endpoint, the call sees a `Turn`: the endpoint, the queues, and what
the call has done beyond changing them, in order. Whether a command reaches a mailbox or an event is
received makes no difference to the endpoint, so these things are only listed here (`Effect`) and
done afterwards, by `Surroundings.applyAll`.

Every operation is a total function of a turn. One that can be misused gives an `Outcome`, which has
the turn as it was left also where a fault ended the call: an assertion that fails does not undo
what was done before it.

Each elementary change touches one part of a turn only: see the laws of `withPipe`, `putQueue`,
`note`, `post` and `notify`.

The end of the module is the step every signal of the handshake goes through, `Turn.transition`
(`transition`). It asks the table `State.on`, enters the new state, with an entry in the log if it
is another one, and does what the action asks for at once: to send the request, or to give up the
outbound queue and acknowledge (`send_peer`). The action is handed back, since the caller of a
termination has to know whether it was ignored, and the caller of an acknowledgment that the
endpoint is to be taken down.

To take an endpoint down with an acknowledgment of its own is to give up the outbound queue and
acknowledge as well (`releaseAndAck`). In the program that is left to the one caller that can meet
this action, and nothing happens in between.

Out of scope: that a notification runs the owner's code. An owner who reacts to an event does so by
a later call.
-/

namespace MessagePipe

/-- Something a call does beyond changing the endpoint and the queues. -/
inductive Effect where
  /-- An entry for the log. -/
  | note (entry : Entry)
  /-- A command for the peer. -/
  | post (command : Command)
  /-- An event for the owner. -/
  | notify (event : Event)
deriving DecidableEq, Repr

namespace Effect

/-- The commands among effects, in order. -/
def commands (effects : List Effect) : List Command :=
  effects.filterMap fun
    | post command => some command
    | _ => none

/-- The events among effects, in order. -/
def events (effects : List Effect) : List Event :=
  effects.filterMap fun
    | notify event => some event
    | _ => none

@[simp] theorem commands_append (xs ys : List Effect) :
    commands (xs ++ ys) = commands xs ++ commands ys :=
  List.filterMap_append ..

@[simp] theorem events_append (xs ys : List Effect) :
    events (xs ++ ys) = events xs ++ events ys :=
  List.filterMap_append ..

end Effect

/-- An endpoint at work. -/
structure Turn where
  /-- The endpoint. -/
  pipe : Pipe
  /-- The contents of all queues. -/
  queues : Queues
  /-- What was done, in order. -/
  effects : List Effect := []

/-- What came of a call. -/
structure Outcome (α : Type) where
  /-- The result, or the fault that ended the call. -/
  result : Except Fault α
  /-- The turn as it was left. -/
  turn : Turn

/-- Goes on with the result, unless a fault ended the call. -/
def Outcome.andThen {α β : Type} (o : Outcome α) (f : α → Turn → Outcome β) : Outcome β :=
  match o.result with
  | .ok a => f a o.turn
  | .error fault => { result := .error fault, turn := o.turn }

/-- Gives another result, unless a fault ended the call. -/
def Outcome.map {α β : Type} (o : Outcome α) (f : α → β) : Outcome β where
  result := o.result.map f
  turn := o.turn

namespace Turn

/-! ## Elementary changes -/

/-- Ends a call with a result. -/
def answer {α : Type} (t : Turn) (a : α) : Outcome α :=
  { result := .ok a, turn := t }

/-- Ends a call with a fault. -/
def fail {α : Type} (t : Turn) (fault : Fault) : Outcome α :=
  { result := .error fault, turn := t }

/-- Changes the endpoint. -/
def withPipe (t : Turn) (pipe : Pipe) : Turn :=
  { t with pipe }

/-- Changes a queue. -/
def putQueue (t : Turn) (id : QueueId) (q : Queue Frame) : Turn :=
  { t with queues := t.queues.set id q }

/-- Does one more thing. -/
def emit (t : Turn) (e : Effect) : Turn :=
  { t with effects := t.effects ++ [e] }

/-- Makes an entry in the log. -/
def note (t : Turn) (entry : Entry) : Turn :=
  t.emit (.note entry)

/-- Sends a command to the peer. -/
def post (t : Turn) (command : Command) : Turn :=
  t.emit (.post command)

/-- Notifies the owner. -/
def notify (t : Turn) (event : Event) : Turn :=
  t.emit (.notify event)

/-- The commands sent, in order. -/
def posted (t : Turn) : List Command :=
  Effect.commands t.effects

/-- The events notified, in order. -/
def events (t : Turn) : List Event :=
  Effect.events t.effects

@[simp] theorem pipe_withPipe (t : Turn) (p : Pipe) : (t.withPipe p).pipe = p := rfl
@[simp] theorem queues_withPipe (t : Turn) (p : Pipe) : (t.withPipe p).queues = t.queues := rfl
@[simp] theorem effects_withPipe (t : Turn) (p : Pipe) : (t.withPipe p).effects = t.effects := rfl

@[simp] theorem pipe_putQueue (t : Turn) (id : QueueId) (q : Queue Frame) :
    (t.putQueue id q).pipe = t.pipe := rfl
@[simp] theorem queues_putQueue (t : Turn) (id : QueueId) (q : Queue Frame) :
    (t.putQueue id q).queues = t.queues.set id q := rfl
@[simp] theorem effects_putQueue (t : Turn) (id : QueueId) (q : Queue Frame) :
    (t.putQueue id q).effects = t.effects := rfl

@[simp] theorem pipe_note (t : Turn) (entry : Entry) : (t.note entry).pipe = t.pipe := rfl
@[simp] theorem queues_note (t : Turn) (entry : Entry) : (t.note entry).queues = t.queues := rfl
@[simp] theorem effects_note (t : Turn) (entry : Entry) :
    (t.note entry).effects = t.effects ++ [.note entry] := rfl

@[simp] theorem pipe_post (t : Turn) (c : Command) : (t.post c).pipe = t.pipe := rfl
@[simp] theorem queues_post (t : Turn) (c : Command) : (t.post c).queues = t.queues := rfl
@[simp] theorem effects_post (t : Turn) (c : Command) :
    (t.post c).effects = t.effects ++ [.post c] := rfl

@[simp] theorem pipe_notify (t : Turn) (e : Event) : (t.notify e).pipe = t.pipe := rfl
@[simp] theorem queues_notify (t : Turn) (e : Event) : (t.notify e).queues = t.queues := rfl
@[simp] theorem effects_notify (t : Turn) (e : Event) :
    (t.notify e).effects = t.effects ++ [.notify e] := rfl

/-! ## The handshake -/

/-- Gives up the outbound queue and acknowledges termination. -/
def releaseAndAck (t : Turn) : Turn :=
  (t.withPipe { t.pipe with outbound := none }).post .pipeTermAck

/-- What an action of the handshake does at once. -/
def act (t : Turn) : Action → Turn
  | .sendTerm => t.post .pipeTerm
  | .releaseAndAck | .deallocate true => t.releaseAndAck
  | .none | .ignore | .deallocate false => t

/-- Enters a state, which is noted if it is another one. -/
def enter (t : Turn) (state : State) (signal : Signal) : Turn :=
  if state = t.pipe.state then t
  else (t.withPipe { t.pipe with state }).note (.transition t.pipe.id t.pipe.state state signal)

/-- Takes the handshake one signal further. -/
def transition (t : Turn) (signal : Signal) : Outcome Action :=
  match t.pipe.state.on signal with
  | none => t.fail (.protocolViolation signal t.pipe.state)
  | some (state, action) => ((t.enter state signal).act action).answer action

@[simp] theorem pipe_enter (t : Turn) (state : State) (signal : Signal) :
    (t.enter state signal).pipe = { t.pipe with state } := by
  unfold enter
  split
  · next h => rw [h]
  · rfl

@[simp] theorem queues_enter (t : Turn) (state : State) (signal : Signal) :
    (t.enter state signal).queues = t.queues := by
  unfold enter
  split <;> rfl

@[simp] theorem posted_enter (t : Turn) (state : State) (signal : Signal) :
    (t.enter state signal).posted = t.posted := by
  unfold enter
  split
  · rfl
  · simp [posted, Effect.commands]

@[simp] theorem events_enter (t : Turn) (state : State) (signal : Signal) :
    (t.enter state signal).events = t.events := by
  unfold enter
  split
  · rfl
  · simp [events, Effect.events]

end Turn

end MessagePipe
