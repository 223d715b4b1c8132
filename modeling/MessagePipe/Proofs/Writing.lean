import MessagePipe.Proofs.Tasks
import MessagePipe.Transfer.Writer

/-!
# What the writing task does

The writer of the throughput program (§11.5 of the specification) writes messages of several frames
as long as its pipe takes them, flushes, and after the last one terminates; then it waits for a
command. Its account is of the frames it wrote (`Wrote`), and where it waits it has published them
all: either flow control holds it back, or it asked for the end of its stream (`WriterWaits`). All
calls on the way are answered without a fault.

* `Job.tail`, `Job.sent`: the last frames of a message, and the frames of so many messages. The
  lemmas on them count messages, frames and bytes.
* `Reacts.write_of_room`, `Reacts.checkWrite_cases`, `Reacts.flush_ready`,
  `Reacts.terminate_active`: the four calls, as far as the task needs to know.
* `exists_writeMessage`: a message is written whole, or the writer is marked as not worth writing
  to. In between, nothing is taken back.
* `exists_writeMessages`, `exists_flush`, `exists_terminate`: the parts of its work, which
  `exists_write` puts together. Each gives the scene that it leads to.
* `serves_writing`: so it serves (`Proofs/Tasks`), and ends with all messages written.
* `WriterHolds.of_spares`: what holds of the writing task is nothing the reader changes.

A task that is marked waits for a command, and is not stuck: at rest, a writer that published all it
wrote is below its watermark (`Proofs/OneWay`).

Premise: the pair is one-way. A message has at least one frame (`Job.frames`), so the account of
messages is one of frames as well.

Out of scope: pacing and rates. That the pipe would take a message whole also where it is not the
task's is in `Proofs/WholeMessages`.
-/

namespace MessagePipe

/-! ## What the calls of a writer come to -/

section Reacts

variable {p : Pipe} {v : View} {r : Reaction}

/-- A frame is accepted of a writer in operation that is below its watermark. -/
theorem Reacts.write_of_room {f : Frame} {q : QueueId} (h : Reacts p v (.call (.write f)) r)
    (hf : f.isDelimiter = false) (ho : p.outActive = true) (hs : p.state = .active)
    (hn : p.isFull = false) (hq : p.outbound = some q) :
    r.result = .ok .accepted ∧
      r.pipe = { p with msgsWritten := p.msgsWritten + if f.hasMore then 0 else 1 } ∧
      r.view q = (v q).write f f.hasMore ∧ r.takenBack = 0 := by
  obtain rfl := h.unique (.writeAccepted hf ho hs hn hq)
  exact ⟨rfl, rfl, Function.update_self .., rfl⟩

/-- A writer in operation learns that it may write, or is marked from then on. -/
theorem Reacts.checkWrite_cases (h : Reacts p v (.call .checkWrite) r) (hs : p.state = .active) :
    r.view = v ∧ r.takenBack = 0 ∧
      (r.result = .ok (.flag true) ∧ r.pipe = p ∧ p.outActive = true ∧ p.isFull = false ∨
        r.result = .ok (.flag false) ∧ r.pipe = { p with outActive := false }) := by
  rcases h.checkWrite_outcome with ⟨rfl, -, ho, hn⟩ | ⟨o, rfl, hno⟩
  · exact ⟨rfl, rfl, .inl ⟨rfl, rfl, ho, hn⟩⟩
  · obtain ⟨rfl, -⟩ := hno.resolve_left fun hne => hne hs
    exact ⟨rfl, rfl, .inr ⟨rfl, rfl⟩⟩

/-- A flush leaves nothing ready, and the fragments as they were. -/
theorem Reacts.flush_ready (h : Reacts p v (.call .flush) r) (hp : p.Honest) :
    r.pipe = p ∧ r.takenBack = 0 ∧ ∀ q, p.outbound = some q →
      (r.view q).ready = [] ∧ (r.view q).fragments = (v q).fragments := by
  cases h with
  | flushNothing h =>
    refine ⟨rfl, rfl, fun q hq => ?_⟩
    rcases h with hs | hn
    · rw [Pipe.Honest, hq, hs] at hp
      cases hp
    · cases hn.symm.trans hq
  | flush hs hq =>
    refine ⟨rfl, rfl, fun q hq' => ?_⟩
    obtain rfl := Option.some.inj (hq.symm.trans hq')
    dsimp only
    rw [Function.update_self]
    exact ⟨Segments.ready_flush _, Segments.fragments_flush _⟩
  | lookIdle hc | lookDry hc | lookDelimiter hc => cases hc

/-- A writer in operation that has no message open asks to terminate, and all is published. -/
theorem Reacts.terminate_active {d : Bool} {q : QueueId}
    (h : Reacts p v (.call (.terminate d)) r) (hs : p.state = .active) (hq : p.outbound = some q)
    (hf : (v q).fragments = []) :
    r.result = .ok .done ∧ r.takenBack = 0 ∧ r.pipe.state ≠ .active ∧
      r.pipe.outbound = some q ∧ (r.view q).ready = [] ∧ (r.view q).fragments = [] := by
  obtain ⟨s, hon⟩ : ∃ s, p.state.on (.terminate d) = some (s, .sendTerm) := by
    rw [hs]
    exact ⟨_, rfl⟩
  have hall : (v q).fragments.all Frame.hasMore = true := by
    rw [hf]
    rfl
  obtain rfl := h.unique (.terminate hon nofun hq hall)
  refine ⟨rfl, by rw [hf]; rfl, State.on_ne_active hon, hq, ?_⟩
  dsimp only
  rw [Function.update_self, Segments.flush_ended]
  exact ⟨rfl, rfl⟩

end Reacts

namespace Pair

/-- Side `a` has no message open that it staged fragments of. -/
def NoneOpen (x : Pair) : Prop :=
  ∀ q, (x.pipe .a).outbound = some q → (x.view q).fragments = []

/-- Side `a` has published all complete messages. -/
def NoneReady (x : Pair) : Prop :=
  ∀ q, (x.pipe .a).outbound = some q → (x.view q).ready = []

end Pair

namespace Transfer

/-! ## What is written -/

namespace Job

/-- A frame of a message. -/
def frame (j : Job) (more : Bool) : Frame :=
  (Frame.ofBytes j.payload).setMore more

@[simp] theorem hasMore_frame (j : Job) (more : Bool) : (j.frame more).hasMore = more :=
  Frame.hasMore_setMore _ more

@[simp] theorem isDelimiter_frame (j : Job) (more : Bool) : (j.frame more).isDelimiter = false :=
  rfl

/-- The last `n` frames of a message. -/
def tail (j : Job) : Nat → List Frame
  | 0 => []
  | n + 1 => j.frame (0 < n) :: j.tail n

/-- The frames of `m` messages. -/
def sent (j : Job) : Nat → List Frame
  | 0 => []
  | m + 1 => j.sent m ++ j.tail j.frames

@[simp] theorem size_frame (j : Job) (more : Bool) : (j.frame more).size = j.payload.size :=
  rfl

/-- A frame ends its message if no more follow. -/
theorem messages_frame (j : Job) (more : Bool) :
    MessagePipe.messages [j.frame more] = if more then 0 else 1 := by
  rw [messages_singleton (j.isDelimiter_frame more), hasMore_frame]

theorem messages_tail (j : Job) (n : Nat) : MessagePipe.messages (j.tail (n + 1)) = 1 := by
  induction n with
  | zero => exact j.messages_frame false
  | succ n ih =>
    rw [tail, messages_cons, ih, messages_frame, decide_eq_true (Nat.succ_pos n)]
    rfl

@[simp] theorem length_tail (j : Job) (n : Nat) : (j.tail n).length = n := by
  induction n with
  | zero => rfl
  | succ n ih => rw [tail, List.length_cons, ih]

theorem totalSize_tail (j : Job) (n : Nat) : totalSize (j.tail n) = n * j.payload.size := by
  induction n with
  | zero => exact (Nat.zero_mul _).symm
  | succ n ih => rw [tail, totalSize, ih, size_frame, Nat.succ_mul, Nat.add_comm]

/-- Among the frames of `m` messages, `m` messages end. -/
theorem messages_sent (j : Job) (m : Nat) : MessagePipe.messages (j.sent m) = m := by
  have hframes : j.frames = j.frames - 1 + 1 := (Nat.sub_add_cancel (Nat.le_max_right ..)).symm
  induction m with
  | zero => rfl
  | succ m ih => rw [sent, messages_append, ih, hframes, messages_tail]

/-- Every message has its frames, -/
theorem length_sent (j : Job) (m : Nat) : (j.sent m).length = m * j.frames := by
  induction m with
  | zero => exact (Nat.zero_mul _).symm
  | succ m ih => rw [sent, List.length_append, ih, length_tail, Nat.succ_mul]

/-- and in each of them the bytes of the payload. -/
theorem totalSize_sent (j : Job) (m : Nat) :
    totalSize (j.sent m) = m * (j.payload.size * j.frames) := by
  induction m with
  | zero => exact (Nat.zero_mul _).symm
  | succ m ih =>
    rw [sent, totalSize_append, ih, totalSize_tail, Nat.succ_mul, Nat.mul_comm j.frames]

end Job

open Scene (Spares Works)

variable {j : Job} {y : Scene} {stats : WriterStats}

theorem outbound_of_active (y : Scene) (hs : (y.pair.pipe .a).state = .active) :
    ∃ q, (y.pair.pipe .a).outbound = some q :=
  (y.oneWay.sound.agrees.honest .a).exists_outbound hs

/-- The frames of a message are accepted where the first of them is. -/
theorem exists_writeFrames (j : Job) (n : Nat) (y : Scene)
    (hs : (y.pair.pipe .a).state = .active) (ho : (y.pair.pipe .a).outActive = true)
    (hn : (y.pair.pipe .a).isFull = false) :
    ∃ z : Scene, writeFrames j n y.link = (.ok true, z.link) ∧ Works .a y z ∧
      (z.pair.pipe .a).state = .active ∧
      z.pair.written .a = y.pair.written .a ++ j.tail n ∧ (0 < n → z.pair.NoneOpen) := by
  induction n generalizing y with
  | zero =>
    exact ⟨y, rfl, .refl .a y, hs, (List.append_nil _).symm,
      fun h => absurd h (Nat.lt_irrefl 0)⟩
  | succ n ih =>
    obtain ⟨q, hq⟩ := outbound_of_active y hs
    obtain ⟨r, z, es, ht, he⟩ := y.exists_call (.write (j.frame (0 < n)))
    obtain ⟨hres, hpipe, hview, hback⟩ :=
      ht.reacts.write_of_room (j.isDelimiter_frame _) ho hs hn hq
    have hstep : writeFrames j (n + 1) y.link = writeFrames j n z.link := by
      rw [writeFrames, show (Frame.ofBytes j.payload).setMore (0 < n) = j.frame (0 < n) from rfl, he,
        hres]
    have hworks := ht.works
    have hown := ht.own.trans hpipe
    have hwritten : z.pair.written .a = y.pair.written .a ++ [j.frame (0 < n)] := by
      rw [ht.written_call hback, hres]
      rfl
    rw [hstep]
    cases n with
    | zero =>
      refine ⟨z, rfl, hworks, by rw [hown]; exact hs, hwritten, fun _ q' hq' => ?_⟩
      rw [hown, show Pipe.outbound _ = (y.pair.pipe .a).outbound from rfl, hq] at hq'
      rw [ht.view, ← Option.some.inj hq', hview, j.hasMore_frame]
      rfl
    | succ n =>
      obtain ⟨w, hw, hworks', hs', hwritten', hopen⟩ := ih z (by rw [hown]; exact hs)
        (by rw [hown]; exact ho) (by
          rw [hown, ← hn]
          exact Pipe.isFull_congr rfl (by simp) rfl)
      refine ⟨w, hw, hworks.trans hworks', hs', ?_, fun _ => hopen (Nat.succ_pos n)⟩
      rw [hwritten', hwritten, List.append_assoc]
      rfl

/-- **A message is written whole, or the writer is marked as not worth writing to.** -/
theorem exists_writeMessage (j : Job) (y : Scene) (hs : (y.pair.pipe .a).state = .active) :
    ∃ z : Scene, Works .a y z ∧ (z.pair.pipe .a).state = .active ∧
      (writeMessage j y.link = (.ok true, z.link) ∧
          z.pair.written .a = y.pair.written .a ++ j.tail j.frames ∧ z.pair.NoneOpen ∨
        writeMessage j y.link = (.ok false, z.link) ∧
          z.pair.written .a = y.pair.written .a ∧ (z.pair.pipe .a).outActive = false ∧
          (y.pair.NoneOpen → z.pair.NoneOpen)) := by
  obtain ⟨r, z, es, ht, he⟩ := y.exists_call .checkWrite
  have hworks := ht.works
  obtain ⟨hview, hback, hcases⟩ := ht.reacts.checkWrite_cases hs
  have hwritten : z.pair.written .a = y.pair.written .a :=
    (ht.written_call hback).trans (List.append_nil _)
  rcases hcases with ⟨hres, hpipe, ho, hn⟩ | ⟨hres, hpipe⟩
  · have hown := ht.own.trans hpipe
    obtain ⟨w, hw, hworks', hs', hwritten', hopen⟩ := exists_writeFrames j j.frames z
      (hown ▸ hs) (hown ▸ ho) (hown ▸ hn)
    refine ⟨w, hworks.trans hworks', hs',
      .inl ⟨?_, by rw [hwritten', hwritten], hopen (Nat.le_max_right ..)⟩⟩
    rw [writeMessage, he, hres]
    exact hw
  · have hown := ht.own.trans hpipe
    refine ⟨z, hworks, by rw [hown]; exact hs, .inr ⟨?_, hwritten, by rw [hown], ?_⟩⟩
    · rw [writeMessage, he, hres]
    · intro hopen q hq
      rw [hown] at hq
      rw [ht.view, hview]
      exact hopen q hq

/-- The account is of what was written, and no message is open. -/
structure Wrote (j : Job) (stats : WriterStats) (x : Pair) : Prop where
  written : x.written .a = j.sent stats.messages
  bytes : stats.bytes = stats.messages * (j.payload.size * j.frames)
  le : stats.messages ≤ j.messages
  noneOpen : x.NoneOpen

/-- Messages are written until all are, or the writer is marked. -/
theorem exists_writeMessages (n : Nat) (hn : stats.messages + n = j.messages)
    (hs : (y.pair.pipe .a).state = .active) (hw : Wrote j stats y.pair) :
    ∃ stats' z, writeMessages j n stats y.link = (.ok stats', Scene.link z) ∧ Works .a y z ∧
      (z.pair.pipe .a).state = .active ∧ Wrote j stats' z.pair ∧
      (stats'.messages < j.messages → (z.pair.pipe .a).outActive = false) := by
  induction n generalizing stats y with
  | zero =>
    exact ⟨stats, y, rfl, .refl .a y, hs, hw,
      fun h => absurd hn (Nat.ne_of_lt h)⟩
  | succ n ih =>
    obtain ⟨z, hworks, hs', ⟨hmsg, hwritten, hopen⟩ | ⟨hmsg, hwritten, ho, hopen⟩⟩ :=
      exists_writeMessage j y hs
    · have hw' : Wrote j
          { stats with
            messages := stats.messages + 1
            bytes := stats.bytes + j.payload.size * j.frames } z.pair := by
        refine ⟨?_, ?_, by dsimp only; omega, hopen⟩
        · rw [hwritten, hw.written]
          rfl
        · dsimp only
          rw [hw.bytes, Nat.succ_mul]
      obtain ⟨stats', w, hrun, hworks', hrest⟩ := ih (by dsimp only; omega) hs' hw'
      refine ⟨stats', w, ?_, hworks.trans hworks', hrest⟩
      rw [writeMessages, hmsg]
      exact hrun
    · refine ⟨stats, z, ?_, hworks, hs',
        ⟨hwritten.trans hw.written, hw.bytes, hw.le, hopen hw.noneOpen⟩, fun _ => ho⟩
      rw [writeMessages, hmsg]

/-- Where the writing task waits: all it wrote is published, and it waits to be told that it may
write, or that its pipe is taken down. -/
structure WriterWaits (j : Job) (stats : WriterStats) (x : Pair) : Prop
    extends Wrote j stats x where
  noneReady : x.NoneReady
  stage : stats.messages = j.messages ∧ (x.pipe .a).state ≠ .active ∨
    stats.messages < j.messages ∧ (x.pipe .a).state = .active ∧ (x.pipe .a).outActive = false

/-- What was written is published. -/
theorem exists_flush (hw : Wrote j stats y.pair) :
    ∃ z : Scene, (y.link.call .a .flush).2 = z.link ∧ Works .a y z ∧
      z.pair.pipe .a = y.pair.pipe .a ∧ Wrote j stats z.pair ∧ z.pair.NoneReady := by
  obtain ⟨r, z, es, ht, he⟩ := y.exists_call .flush
  obtain ⟨hpipe, hback, hready⟩ := ht.reacts.flush_ready (y.oneWay.sound.agrees.honest .a)
  have hown : z.pair.pipe .a = y.pair.pipe .a := ht.own.trans hpipe
  have hwritten : z.pair.written .a = y.pair.written .a :=
    (ht.written_call hback).trans (List.append_nil _)
  refine ⟨z, by rw [he], ht.works, hown,
    ⟨hwritten.trans hw.written, hw.bytes, hw.le, fun q hq => ?_⟩, fun q hq => ?_⟩
  · rw [hown] at hq
    rw [ht.view, (hready q hq).2]
    exact hw.noneOpen q hq
  · rw [hown] at hq
    rw [ht.view]
    exact (hready q hq).1

/-- After the last message the pipe is terminated. -/
theorem exists_terminate (hw : Wrote j stats y.pair) (hm : stats.messages = j.messages)
    (hs : (y.pair.pipe .a).state = .active) :
    ∃ es z, (y.link.note (.done stats.messages)).call .a (.terminate true) =
        ({ result := .ok .done, effects := es }, Scene.link z) ∧ Works .a y z ∧
      WriterWaits j stats z.pair := by
  obtain ⟨y', hl, hp, hnoted⟩ :=
    y.exists_note (s := .a) (e := .done stats.messages) (by rintro _ ⟨⟩)
  rw [← hp] at hs hw
  obtain ⟨q, hq⟩ := outbound_of_active y' hs
  obtain ⟨r, z, es, ht, he⟩ := y'.exists_call (.terminate true hs)
  obtain ⟨hres, hback, hne, hq', hready, hfragments⟩ :=
    ht.reacts.terminate_active hs hq (hw.noneOpen q hq)
  have hend : ∀ q', (z.pair.pipe .a).outbound = some q' → q' = q := fun q' h => by
    rw [ht.own, hq'] at h
    exact (Option.some.inj h).symm
  refine ⟨es, z, by rw [← hl, he, hres], hnoted.trans ht.works,
    ⟨?_, hw.bytes, hw.le, fun q' h => ?_⟩, fun q' h => ?_, .inl ⟨hm, by rw [ht.own]; exact hne⟩⟩
  · exact (ht.written_call hback).trans ((List.append_nil _).trans hw.written)
  · rw [hend q' h, ht.view, hfragments]
  · rw [hend q' h, ht.view, hready]

/-- **What was written is published,** and the pipe is terminated after the last message. -/
theorem exists_concludeWriting (hw : Wrote j stats y.pair)
    (hs : stats.messages < j.messages →
      (y.pair.pipe .a).state = .active ∧ (y.pair.pipe .a).outActive = false) :
    ∃ stats' z, concludeWriting j stats y.link = (.ok stats', Scene.link z) ∧ Works .a y z ∧
      WriterWaits j stats' z.pair := by
  obtain ⟨z, hl, hworks, hown, hw', hready⟩ := exists_flush hw
  rw [concludeWriting, hl, z.pipe_eq]
  rcases Nat.lt_or_eq_of_le hw.le with hm | hm
  · rw [if_neg (Nat.ne_of_lt hm)]
    exact ⟨_, z, rfl, hworks, ⟨hw'.written, hw'.bytes, hw'.le, hw'.noneOpen⟩, hready,
      .inr ⟨hm, by rw [hown]; exact hs hm⟩⟩
  · rw [if_pos hm]
    by_cases hact : (z.pair.pipe .a).state = .active
    · obtain ⟨es, w, hrun, hworks', hwaits⟩ := exists_terminate hw' hm hact
      rw [if_pos hact, hrun]
      exact ⟨stats, w, rfl, hworks.trans hworks', hwaits⟩
    · rw [if_neg hact]
      exact ⟨stats, z, rfl, hworks, hw', hready, .inl ⟨hm, hact⟩⟩

/-- **The writing task works without a fault,** until it waits. -/
theorem exists_write (hw : Wrote j stats y.pair)
    (hs : stats.messages = j.messages ∨ (y.pair.pipe .a).state = .active) :
    ∃ stats' z, (writing j).work stats y.link = (.ok stats', Scene.link z) ∧ Works .a y z ∧
      WriterWaits j stats' z.pair := by
  by_cases hm : stats.messages = j.messages
  · obtain ⟨stats', z, hrun, hrest⟩ :=
      exists_concludeWriting hw fun hlt => absurd hm (Nat.ne_of_lt hlt)
    refine ⟨stats', z, ?_, hrest⟩
    rw [← hrun]
    dsimp only [writing]
    rw [hm, Nat.sub_self]
    rfl
  · obtain ⟨stats₁, z₁, hrun₁, hworks₁, hact, hw₁, ho⟩ :=
      exists_writeMessages (j.messages - stats.messages) (Nat.add_sub_cancel' hw.le)
        (hs.resolve_left hm) hw
    obtain ⟨stats', z, hrun, hworks, hwaits⟩ :=
      exists_concludeWriting hw₁ fun hlt => ⟨hact, ho hlt⟩
    refine ⟨stats', z, ?_, hworks₁.trans hworks, hwaits⟩
    dsimp only [writing]
    rw [hrun₁]
    exact hrun

/-- Where the writing task ends: all messages are written. -/
structure WriterEnds (j : Job) (stats : WriterStats) (x : Pair) : Prop where
  written : x.written .a = j.sent j.messages
  messages : stats.messages = j.messages
  bytes : stats.bytes = j.messages * (j.payload.size * j.frames)

/-- What holds of the writing task, phase by phase. -/
def WriterHolds (j : Job) : Phase → WriterStats → Pair → Prop
  | .unstarted, stats, x => Wrote j stats x ∧ (x.pipe .a).state = .active
  | .waiting, stats, x => WriterWaits j stats x
  | .finished, stats, x => WriterEnds j stats x
  | .failed _, _, _ => False

/-- Commands are no part of the account. -/
theorem foldl_hear_writing (j : Job) (stats : WriterStats) (es : List Event) :
    es.foldl (writing j).hear stats = stats :=
  List.foldl_fixed es

/-- **The writing task serves,** whatever it is told. -/
theorem serves_writing (j : Job) : (writing j).Serves (WriterHolds j) where
  starts {stats y} hw := exists_write hw.1 (.inr hw.2)
  ends {stats y z c r} hw hz hterm := by
    replace hw : WriterWaits j stats y.pair := hw
    replace hz : y.Takes .a (.command c) r z := hz
    obtain ⟨left, hd, -⟩ := hz.pair
    rw [foldl_hear_writing]
    obtain ⟨-, hne⟩ | ⟨hn, -⟩ := y.oneWay.command_of_writer hd hz.reacts
    · have hm : stats.messages = j.messages := by
        rcases hw.stage with ⟨hm, -⟩ | ⟨-, hs, -⟩
        · exact hm
        · exact absurd hs hne
      exact ⟨hz.written.trans (hm ▸ hw.written), hm, hm ▸ hw.bytes⟩
    · exact absurd hterm hn
  works {stats y z c r} hw hz hterm := by
    replace hw : WriterWaits j stats y.pair := hw
    replace hz : y.Takes .a (.command c) r z := hz
    obtain ⟨left, hd, -⟩ := hz.pair
    rw [foldl_hear_writing]
    obtain ⟨hn, -⟩ | ⟨-, hs, hq, hv⟩ := y.oneWay.command_of_writer hd hz.reacts
    · exact absurd hn hterm
    · have hw' : Wrote j stats z.pair := by
        refine ⟨hz.written.trans hw.written, hw.bytes, hw.le, fun q hq' => ?_⟩
        rw [hz.own, hq] at hq'
        rw [hz.view, hv]
        exact hw.noneOpen q hq'
      refine exists_write hw' ?_
      rw [hz.own, hs]
      exact hw.stage.imp And.left fun h => h.2.1

/-- What holds of the writing task is nothing the reader changes. -/
theorem WriterHolds.of_spares {phase : Phase} {z : Scene} (h : WriterHolds j phase stats y.pair)
    (hz : Spares .b y z) : WriterHolds j phase stats z.pair := by
  have hpipe : z.pair.pipe .a = y.pair.pipe .a := hz.pipe
  have hwritten : z.pair.written .a = y.pair.written .a := hz.written
  have hwrote : Wrote j stats y.pair → Wrote j stats z.pair := fun h =>
    ⟨hwritten.trans h.written, h.bytes, h.le, fun q hq => by
      rw [hpipe] at hq
      rw [(hz.staged q hq).2]
      exact h.noneOpen q hq⟩
  cases phase with
  | unstarted => exact ⟨hwrote h.1, by rw [hpipe]; exact h.2⟩
  | waiting =>
    replace h : WriterWaits j stats y.pair := h
    refine ⟨hwrote h.toWrote, fun q hq => ?_, by rw [hpipe]; exact h.stage⟩
    rw [hpipe] at hq
    rw [(hz.staged q hq).1]
    exact h.noneReady q hq
  | finished => exact ⟨hwritten.trans h.written, h.messages, h.bytes⟩
  | failed => exact h

/-- Once the writer is out of operation, all messages are written. -/
theorem WriterHolds.written_eq {phase : Phase} {x : Pair} (h : WriterHolds j phase stats x)
    (hs : (x.pipe .a).state ≠ .active) : x.written .a = j.sent j.messages := by
  cases phase with
  | unstarted => exact absurd h.2 hs
  | waiting =>
    replace h : WriterWaits j stats x := h
    rcases h.stage with ⟨hm, -⟩ | ⟨-, ha, -⟩
    · rw [h.written, hm]
    · exact absurd ha hs
  | finished => exact WriterEnds.written h
  | failed => exact absurd h id

end Transfer

end MessagePipe
