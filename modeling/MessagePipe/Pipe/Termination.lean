import MessagePipe.Pipe.Flow

/-!
# Terminating

The operations `terminate`, `process_pipe_term` and `process_pipe_term_ack`, §4.3 of the
specification. The owner of either end asks to terminate; the two ends then answer each other until
both are taken down. The end that asks closes its stream with a delimiter behind all complete
messages.

* `terminate` sets the endpoint's delay, takes the handshake one signal further, and stops there if
  the request was ignored. Otherwise it closes the writing side, rolls back the fragments of an open
  message, and puts the delimiter behind what is left, past the watermark (`endStream`). An endpoint
  that gave up its outbound queue in the same transition has nowhere to put it.
* `processPipeTerm` is the peer's request; what comes of it is in the table of the handshake alone,
  with the delay as it is set by then.
* `processPipeTermAck` takes the endpoint down: an acknowledgment of one that is closed already is a
  fault, and otherwise the owner is notified before the inbound queue is drained and given up, with
  an entry for what was not read (`deallocate`).

Two visible consequences of the table are not corrected here: to terminate in `active` leaves no
state in which messages are read, whatever the delay (`Proofs/DelayedTermination`), and in `pending`
with delay every further call writes one more delimiter (`Proofs/AskingAgain`).

Out of scope: the release of memory as such (`Proofs/Reclaim`).
-/

namespace MessagePipe.Turn

/-- Puts the delimiter behind all that was written, past the watermark, and publishes it. -/
def endStream (t : Turn) : Turn :=
  match t.pipe.outbound with
  | none => t
  | some id => (t.putQueue id ((t.queues.get id).write .delimiter false)).flush

/-- Starts the handshake. With `delay`, messages the peer already sent are to be read first. A
request made before is ignored. -/
def terminate (t : Turn) (delay : Bool) : Outcome Unit :=
  ((t.withPipe { t.pipe with delay }).transition (.terminate delay)).andThen fun action t =>
    match action with
    | .ignore => t.answer ()
    | _ =>
      (t.withPipe { t.pipe with outActive := false }).rollback.andThen fun _ t =>
        t.endStream.answer ()

/-- The peer asked to terminate. -/
def processPipeTerm (t : Turn) : Outcome Unit :=
  (t.transition (.peerTerm t.pipe.delay)).map fun _ => ()

/-- Gives up the inbound queue, with all that was not read. -/
def deallocate (t : Turn) : Turn :=
  match t.pipe.inbound with
  | none => t
  | some id =>
    match (t.queues.get id).readAll with
    | (frames, q) =>
      ((t.putQueue id q).withPipe { t.pipe with inbound := none }).note
        (.deallocated t.pipe.id frames.length)

/-- The peer acknowledged termination: the endpoint is taken down. -/
def processPipeTermAck (t : Turn) : Outcome Unit :=
  if t.pipe.isClosed then t.fail (.acknowledgedTwice t.pipe.id)
  else (t.transition .peerTermAck).andThen fun _ t => (t.notify .terminated).deallocate.answer ()

end MessagePipe.Turn
