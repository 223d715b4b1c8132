import MessagePipe.Command
import MessagePipe.Handshake
import MessagePipe.Identity
import MessagePipe.Settings
import MessagePipe.Watermark

/-!
# Pipes: the two endpoints of a pair

A `Pipe` is one end of a bidirectional message pipe. It reads frames from an inbound queue the peer
feeds, and writes frames to an outbound queue the peer drains. Messages are counted on both sides:
as many as the high watermark says may be written and not reported read, and every low watermark
messages the reader reports how far it has come.

The fields are those of the program's pipe (§3 of the specification), with the queues by name:
`inbound` is `none` once the end is taken down, `outbound` once it was given up, and `generation`
numbers the inbound queues, since a fresh one needs a name. The peer's mailbox is the number of its
owner. The tests that several operations share stand beside it: `isFull` (`is_full`), `isClosed`,
`mayRead`, `isReportedAt`.

`Pipe.pair` makes two ends of fresh queues (`pipepair`, §4.4): each end's high watermark is the
other one's option, each end's low watermark follows from its own. What an owner may do with an end
is in `Pipe/Flow`, `Pipe/Termination` and `Pipe/Hiccup`, what an end does on its own in
`Pipe/Process`.

Out of scope: the three counters and the two watermarks are numbers without a bound, where the
program has 64-bit words. They agree as long as fewer than 2⁶⁴ messages pass. `isFull` subtracts as
the program does, with zero where the peer's count is ahead, and tests for *at least* the watermark
where the specification (§4.2) has *equal*.
-/

namespace MessagePipe

/-- The number of an owner, counted from 0. -/
abbrev OwnerId := Nat

/-- One end of a bidirectional message pipe. -/
structure Pipe where
  /-- Its number. -/
  id : PipeId
  /-- The number of the other end. -/
  peer : PipeId
  /-- The owner of the other end: commands for the peer go to its mailbox. -/
  peerOwner : OwnerId
  /-- The queue it reads from, `none` once the end is taken down. -/
  inbound : Option QueueId
  /-- The queue it writes to, `none` once given up during termination. -/
  outbound : Option QueueId
  /-- How many inbound queues were replaced. -/
  generation : Nat := 0
  /-- Is it worth looking for inbound frames, or has it run dry? -/
  inActive : Bool := true
  /-- Is it worth trying to write, or was the watermark reached? -/
  outActive : Bool := true
  /-- How many messages may be in flight towards the peer; 0 for any number. -/
  hwm : Nat
  /-- Progress is reported every so many messages read; 0 for never. -/
  lwm : Nat
  /-- Complete messages read. -/
  msgsRead : Nat := 0
  /-- Complete messages written. -/
  msgsWritten : Nat := 0
  /-- Complete messages the peer last reported read. -/
  peersMsgsRead : Nat := 0
  /-- Where events go, if anywhere. -/
  sink : Option Sink := none
  /-- The identity of the writing side, once attached. -/
  identity : Option Identity := none
  /-- How far termination has come. -/
  state : State := .active
  /-- Are messages already sent read before a peer's termination is honoured? -/
  delay : Bool
deriving DecidableEq

namespace Pipe

/-- Has the termination handshake completed? -/
def isClosed (p : Pipe) : Bool :=
  p.inbound.isNone

/-- May frames be handed to the owner, as far as the endpoint knows? -/
def mayRead (p : Pipe) : Bool :=
  p.inActive && p.state.isReadable

/-- Are as many messages in flight as the watermark allows? -/
def isFull (p : Pipe) : Bool :=
  0 < p.hwm && p.hwm ≤ p.msgsWritten - p.peersMsgsRead

/-- Is progress reported on having read `count` messages? -/
def isReportedAt (p : Pipe) (count : Nat) : Bool :=
  0 < p.lwm && count % p.lwm == 0

/-- The endpoint as text. -/
def describe (p : Pipe) : String :=
  "Pipe \x7b id: " ++ p.id.describe ++ ", peer: " ++ p.peer.describe ++ ", state: " ++ p.state.name
    ++ ", in_active: " ++ toString p.inActive ++ ", out_active: " ++ toString p.outActive
    ++ ", hwm: " ++ toString p.hwm ++ ", lwm: " ++ toString p.lwm
    ++ ", msgs_read: " ++ toString p.msgsRead ++ ", msgs_written: " ++ toString p.msgsWritten
    ++ ", peers_msgs_read: " ++ toString p.peersMsgsRead ++ ", .. \x7d"

/-- What one endpoint of a pair is made from. -/
structure Plan where
  /-- The endpoint's number. -/
  id : PipeId
  /-- The owner driving the endpoint. -/
  owner : OwnerId
  /-- The endpoint's settings. -/
  options : Options

/-- The endpoint of a plan, connected to the endpoint of another plan. The other one's watermark
bounds what is written, its own one determines when progress is reported. -/
def ofPlans (config : Config) (own peer : Plan) : Pipe where
  id := own.id
  peer := peer.id
  peerOwner := peer.owner
  inbound := some (.inbound own.id 0)
  outbound := some (.inbound peer.id 0)
  hwm := peer.options.hwm.toNat
  lwm := (lowWatermark own.options.hwm config.maxDelta).toNat
  delay := own.options.delay

/-- Two connected endpoints, unless the configuration is refused. -/
def pair (config : Config) (a b : Plan) : Except Error (Pipe × Pipe) :=
  match config.validate with
  | .error e => .error e
  | .ok () => .ok (ofPlans config a b, ofPlans config b a)

end Pipe

end MessagePipe
