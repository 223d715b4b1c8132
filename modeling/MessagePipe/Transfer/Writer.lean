import MessagePipe.Transfer.Task

/-!
# The writing task

It writes a number of equal messages as fast as flow control admits, each message whole or not at
all, and then terminates its pipe (`WriterTask`, §11.5 of the specification).

* `writeMessage` (`write_message`) asks first whether a frame would be accepted, and writes the
  frames of a message one by one, all but the last with the *more* flag. Where one is refused it
  rolls back those before it, so that no part of a message is ever published.
* `writeMessages` does so until a message is refused or none is left to write, and counts.
* `concludeWriting` publishes, and once everything is written terminates the pipe, with delay, if
  the pipe is still in `active`. Otherwise the task was stopped by flow control, which is counted as
  a stall.

`Job` is what is to be sent. A message has at least one fragment, whatever is asked for.

That a message that is begun is never refused half-way is a result about pipes
(`Proofs/WholeMessages`), so the rollback is never reached in a transfer; that the task writes all
messages and ends is in `Proofs/Writing` and `Proofs/Completion`.
-/

namespace MessagePipe.Transfer

/-- What is to be sent. -/
structure Job where
  /-- How many messages. -/
  messages : Nat
  /-- The bytes of every frame. -/
  payload : ByteArray
  /-- How many frames a message has; 0 counts as one. -/
  fragments : Nat

namespace Job

/-- How many frames a message has. -/
def frames (j : Job) : Nat :=
  max j.fragments 1

/-- A job whose frames have the given number of bytes. -/
def ofSizes (messages size fragments : Nat) : Job :=
  { messages, payload := ⟨Array.replicate size 0xAB⟩, fragments }

end Job

/-- The account of the writing task. -/
structure WriterStats where
  /-- Messages written. -/
  messages : Nat := 0
  /-- Bytes written. -/
  bytes : Nat := 0
  /-- How often flow control made the task wait. -/
  stalls : Nat := 0
deriving DecidableEq, Repr

/-- Writes the last `n` frames of a message; `false` if one is refused. -/
def writeFrames (j : Job) : Nat → Link → Except Fault Bool × Link
  | 0, l => (.ok true, l)
  | n + 1, l =>
    match l.call .a (.write ((Frame.ofBytes j.payload).setMore (0 < n))) with
    | ({ result := .ok .accepted, .. }, l) => writeFrames j n l
    | ({ result := .ok _, .. }, l) =>
      match l.call .a .rollback with
      | ({ result := .ok _, .. }, l) => (.ok false, l)
      | ({ result := .error fault, .. }, l) => (.error fault, l)
    | ({ result := .error fault, .. }, l) => (.error fault, l)

/-- Writes one message, all of it or nothing. -/
def writeMessage (j : Job) (l : Link) : Except Fault Bool × Link :=
  match l.call .a .checkWrite with
  | ({ result := .ok (.flag true), .. }, l) => writeFrames j j.frames l
  | ({ result := .ok _, .. }, l) => (.ok false, l)
  | ({ result := .error fault, .. }, l) => (.error fault, l)

/-- Writes messages, at most `n`, until one is refused. -/
def writeMessages (j : Job) : Nat → WriterStats → Link → Except Fault WriterStats × Link
  | 0, stats, l => (.ok stats, l)
  | n + 1, stats, l =>
    match writeMessage j l with
    | (.ok true, l) =>
      writeMessages j n
        { stats with
          messages := stats.messages + 1
          bytes := stats.bytes + j.payload.size * j.frames } l
    | (.ok false, l) => (.ok stats, l)
    | (.error fault, l) => (.error fault, l)

/-- Publishes what was written, and terminates the pipe once everything is. -/
def concludeWriting (j : Job) (stats : WriterStats) (l : Link) :
    Except Fault WriterStats × Link :=
  let l := (l.call .a .flush).2
  if stats.messages = j.messages then
    if (l.side .a).pipe.state = .active then
      match (l.note (.done stats.messages)).call .a (.terminate true) with
      | ({ result := .ok _, .. }, l) => (.ok stats, l)
      | ({ result := .error fault, .. }, l) => (.error fault, l)
    else (.ok stats, l)
  else (.ok { stats with stalls := stats.stalls + 1 }, l)

/-- The writing task, on the first side. -/
def writing (j : Job) : Behaviour WriterStats where
  role := .writer
  side := .a
  work stats l :=
    match writeMessages j (j.messages - stats.messages) stats l with
    | (.error fault, l) => (.error fault, l)
    | (.ok stats, l) => concludeWriting j stats l
  hear stats _ := stats

end MessagePipe.Transfer
