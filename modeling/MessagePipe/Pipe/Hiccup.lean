import MessagePipe.Pipe.Flow

/-!
# Hiccups: replacing a queue in mid-stream

The operations `hiccup` and `process_hiccup`, §4.3 and §11.3 of the specification. An endpoint can
replace its inbound queue by a fresh one. The peer, told so, moves what is left in the old queue
over to the new one, in order, and goes on writing there.

* `hiccup` acts in `active` only. It takes the next name, reads from the empty queue of that name
  from then on, and sends the peer a notice with both names. It does so before it knows whether the
  notice arrives: a command that is lost takes both ends with it (`Proofs/Severance`).
* `processHiccup` is the other side. An endpoint that gave up its outbound queue ignores the notice.
  Otherwise the old queue is flushed, so that its complete messages are published; nobody needs the
  wake-up, since nobody reads there any more.
* `moveStream` then takes back the fragments of an open message, reads the retired queue empty, and
  writes all of it to the new queue, the fragments last and in order. The frames of a message move
  with their *more* flag, so the new queue has the same messages and the same open message as the
  old one.

At the end the endpoint writes to the new queue, which it flushes, and its writing side is open,
whether it was full or not, without a `write_activated`; the owner hears `hiccuped` if the endpoint
is in `active`. What follows from that is in `Proofs/Relocation` and `Proofs/WriteWakeUp`.

Out of scope: how the two ends of the retired queue are dropped (`Proofs/Reclaim`).
-/

namespace MessagePipe.Turn

/-- Replaces the inbound queue by a fresh one, in normal operation only. -/
def hiccup (t : Turn) : Turn :=
  if t.pipe.state = .active then
    match t.pipe.inbound with
    | none => t
    | some retired =>
      let generation := t.pipe.generation + 1
      let fresh := QueueId.inbound t.pipe.id generation
      let replaced := (t.putQueue fresh .empty).withPipe
        { t.pipe with inbound := some fresh, generation, inActive := true }
      (replaced.note (.replaced t.pipe.id)).post (.hiccup fresh retired)
  else t

/-- Moves what is left in the outbound queue `old` to the queue `writer`: the frames its reader
`retired` can still read, and behind them the fragments of an open message. The result counts the
frames moved without the fragments. -/
def moveStream (t : Turn) (old writer retired : QueueId) : Nat × Turn :=
  let flushed := (t.queues.get old).flush.2
  let t := t.putQueue old flushed.unwriteAll.2
  let left := (t.queues.get retired).readAll
  let t := t.putQueue retired left.2
  let moved := ((t.queues.get writer).writeAll Frame.hasMore left.1).writeAll (fun _ => true)
    flushed.unwriteAll.1.reverse
  (left.1.length, t.putQueue writer moved)

/-- The peer replaced its inbound queue. The peer stopped reading the old one, so nobody needs to
be woken for it. -/
def processHiccup (t : Turn) (writer retired : QueueId) : Turn :=
  match t.pipe.outbound with
  | none => t.note (.ignored t.pipe.id)
  | some old =>
    match t.moveStream old writer retired with
    | (count, t) =>
      let switched := t.withPipe { t.pipe with outbound := some writer, outActive := true }
      let told := switched.flush.note (.moved t.pipe.id count)
      if t.pipe.state = .active then told.notify .hiccuped else told

end MessagePipe.Turn
