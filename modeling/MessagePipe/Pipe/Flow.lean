import MessagePipe.Pipe.Turn

/-!
# Reading and writing frames

The operations `check_read`, `read`, `check_write`, `write`, `flush` and `rollback`, §4.2 of the
specification. An endpoint that finds nothing to read, or reaches the watermark, remembers it
(`inActive`, `outActive`) and answers at once until a command of the peer wakes it.

* `checkRead` and `read` first ask whether the endpoint may read at all. A delimiter at the head of
  the queue is consumed, ends the inbound stream as far as the handshake goes, and is answered like
  an empty queue. The frame that ends a message counts, and progress is reported when the count is a
  multiple of the low watermark.
* `checkWrite` is where the watermark is enforced: an endpoint that is full closes itself and
  answers no, also when it is called by `write`. Only an endpoint in `active` accepts anything.
* `write` refuses a delimiter before anything else (`Fault.delimiterWritten`), then asks
  `checkWrite`. A frame that is refused is handed back. A frame of an open message is staged as
  incomplete, so no flush publishes it.
* `flush` publishes what is complete and wakes a reader that had parked; it does nothing in
  `terminating`.
* `rollback` takes back the fragments of an open message, and asserts that each says more frames
  follow.

Two details carry results: `read` marks an endpoint without inbound queue as dry, and `checkRead`
does not; a full endpoint notes it only in `checkWrite`.

Out of scope: counters as 64-bit words (`Pipe/Basic`).
-/

namespace MessagePipe.Turn

/-! ## Reading -/

/-- Remembers that nothing is left to read. -/
def runDry (t : Turn) : Turn :=
  t.withPipe { t.pipe with inActive := false }

/-- Can a frame be read right now? A delimiter at the head of the queue is consumed, and then there
is nothing to read. -/
def checkRead (t : Turn) : Outcome Bool :=
  if t.pipe.mayRead then
    match t.pipe.inbound with
    | none => t.answer false
    | some id =>
      match (t.queues.get id).checkRead with
      | (false, q) => (t.putQueue id q).runDry.answer false
      | (true, q) =>
        match q.probe with
        | (none, q) => (t.putQueue id q).answer true
        | (some frame, q) =>
          if frame.isDelimiter then
            match q.read with
            | (none, q) => (t.putQueue id q).fail .delimiterLost
            | (some _, q) => ((t.putQueue id q).transition .delimiterRead).map fun _ => false
          else (t.putQueue id q).answer true
  else t.answer false

/-- Counts a frame that was read, and reports progress where it is due. -/
def countRead (t : Turn) (frame : Frame) : Turn :=
  if frame.hasMore then t
  else
    let count := t.pipe.msgsRead + 1
    let counted := t.withPipe { t.pipe with msgsRead := count }
    if t.pipe.isReportedAt count then counted.post (.activateWrite count) else counted

/-- Reads the next frame; `none` when there is nothing to read. -/
def read (t : Turn) : Outcome (Option Frame) :=
  if t.pipe.mayRead then
    match t.pipe.inbound with
    | none => t.runDry.answer none
    | some id =>
      match (t.queues.get id).read with
      | (none, q) => (t.putQueue id q).runDry.answer none
      | (some frame, q) =>
        if frame.isDelimiter then
          ((t.putQueue id q).transition .delimiterRead).map fun _ => none
        else ((t.putQueue id q).countRead frame).answer (some frame)
  else t.answer none

/-! ## Writing -/

/-- Would a frame be accepted right now? -/
def checkWrite (t : Turn) : Bool × Turn :=
  if t.pipe.outActive && t.pipe.state == .active then
    if t.pipe.isFull then (false, t.withPipe { t.pipe with outActive := false })
    else (true, t)
  else (false, t)

/-- Counts a frame that was written. -/
def countWritten (t : Turn) (frame : Frame) : Turn :=
  if frame.hasMore then t
  else t.withPipe { t.pipe with msgsWritten := t.pipe.msgsWritten + 1 }

/-- Stages a frame for the peer; the result is the frame handed back where it is refused. Frames of
a message stay invisible to the peer until its last frame is written and flushed. -/
def write (t : Turn) (frame : Frame) : Outcome (Option Frame) :=
  if frame.isDelimiter then t.fail .delimiterWritten
  else
    match t.checkWrite with
    | (false, t) => t.answer (some frame)
    | (true, t) =>
      match t.pipe.outbound with
      | none => t.answer (some frame)
      | some id =>
        let q := (t.queues.get id).write frame frame.hasMore
        ((t.putQueue id q).countWritten frame).answer none

/-- Publishes every complete message staged, and wakes the peer's reader if it had parked. -/
def flush (t : Turn) : Turn :=
  if t.pipe.state = .terminating then t
  else
    match t.pipe.outbound with
    | none => t
    | some id =>
      match (t.queues.get id).flush with
      | (false, q) => t.putQueue id q
      | (true, q) => (t.putQueue id q).post .activateRead

/-- Takes back the staged frames of an open message. -/
def rollback (t : Turn) : Outcome Unit :=
  match t.pipe.outbound with
  | none => t.answer ()
  | some id =>
    match (t.queues.get id).unwriteWhile Frame.hasMore with
    | (frames, q) =>
      let taken := t.putQueue id q
      if frames.all Frame.hasMore then
        if frames = [] then taken.answer ()
        else (taken.note (.rolledBack t.pipe.id frames.length)).answer ()
      else taken.fail .unflaggedFragment

end MessagePipe.Turn
