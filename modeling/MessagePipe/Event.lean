/-!
# Pipes by name, and what they tell their owners

Every endpoint has a number of its own (`PipeId`), by which the log and the envelopes name it. It
notifies its owner through an event sink, if the owner registered one (`PipeEvents` and `PipeEvent`,
§6 and §11.4 of the specification). There are four events; a notification is made inside the call
that causes it, so the order of events is the order of the calls.

A sink is any implementation of an interface. The model has the two that differ in what a pipe can
tell: `Sink.channel` is the one the library brings along, which sends every event through a channel
and logs a warning when nobody receives from it (`forward`); `Sink.plain` implements the interface
with its defaults, so it passes on everything but `hiccuped`, whose default does nothing, and asks
nobody. `Sink.hears` and `Sink.reportsLoss` are all that is used of a sink.

Out of scope: how numbers are drawn from a process-wide counter. A pair gets two numbers that differ
(`Link.create`, `Exchange.addPairs`), and nothing depends on which.
-/

namespace MessagePipe

/-- The number of an endpoint. -/
structure PipeId where
  /-- The number, counted from 1. -/
  number : Nat
deriving DecidableEq, Repr, Inhabited

namespace PipeId

/-- The endpoint as it is named in the log. -/
def label (p : PipeId) : String :=
  "pipe#" ++ toString p.number

/-- The endpoint's number as text. -/
def describe (p : PipeId) : String :=
  "PipeId(" ++ toString p.number ++ ")"

end PipeId

/-- What an endpoint tells its owner. -/
inductive Event where
  /-- Inbound messages became available after the pipe had run dry. -/
  | readActivated
  /-- The peer caught up and the pipe accepts writes again. -/
  | writeActivated
  /-- The peer replaced the outbound queue. -/
  | hiccuped
  /-- The termination handshake completed. -/
  | terminated
deriving DecidableEq, Repr, Inhabited

/-- The event as text, for the endpoint it happened to. -/
def Event.describe (e : Event) (p : PipeId) : String :=
  (match e with
    | readActivated => "ReadActivated"
    | writeActivated => "WriteActivated"
    | hiccuped => "Hiccuped"
    | terminated => "Terminated") ++ "(" ++ p.describe ++ ")"

/-- A kind of event sink. -/
inductive Sink where
  /-- Passes every event on, and reports those that nobody receives. -/
  | channel
  /-- Has nothing to do when the outbound queue was replaced, and passes all else on without asking
  whether anybody receives it. -/
  | plain
deriving DecidableEq, Repr, Inhabited

/-- Does a sink pass an event on? -/
def Sink.hears : Sink → Event → Bool
  | .channel, _ => true
  | .plain, e => e != .hiccuped

/-- Does a sink report the events that nobody receives? -/
def Sink.reportsLoss : Sink → Bool
  | .channel => true
  | .plain => false

end MessagePipe
