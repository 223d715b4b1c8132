import Mathlib.Data.List.DropRight
import Mathlib.Logic.Function.Basic
import MessagePipe.Pipe.Turn
import MessagePipe.Queue.Segments

/-!
# What all queues hold

A `View` gives the segments of every queue. Turns change it queue by queue (`Queues.view_set`), so
what an operation does is said without cursors, and a result about pairs is one about lists of
frames.

The lemmas come in three groups, by what the operations of a pipe do with a queue.

* What an operation of one end answers, by what the queue holds: `read_nil` and `read_cons`,
  `checkRead_nil` and `checkRead_cons`, `probe_cons`, `unwrite_cases`.
* Taking back and staging several frames. `Queue.segments_unwriteWhile`: taking back fragments as
  long as they pass a test, for `rollback`, which asserts of each that more follow.
  `Segments.writeAll_whole`, `Segments.writeAll_incomplete`: staging a run of frames that ends with
  a message (`Whole`), and staging fragments, for a stream that is moved.
* Two changes of a whole queue. `Segments.ended`: the fragments of an open message are dropped and a
  delimiter is staged, for `terminate`. `View.moveStream`: a stream moved from one queue to another,
  for `process_hiccup` (§11.3 of the specification); `View.moveStream_writer` says what the other
  one holds then, and `View.moveStream_retired` that nothing is left in the first.

`Segments.wake` is the command that tells the reader of a flush, where it has to be told. It is a
list of at most one, so that it can be put behind other commands.

Premise of `moveStream_writer`: the new queue is blank, and what is complete in the old one ends
with a message. Both are invariants of `Proofs/Lane`.

Out of scope: who may change which queue; a view has no ends. That is `Proofs/Wiring`.
-/

namespace MessagePipe

universe u

/-! ## Taking fragments back -/

namespace Queue

variable {α : Type u}

/-- Taking back ends with the fragments, or removes the last of them. -/
theorem unwrite_cases (q : Queue α) :
    (q.segments.fragments = [] ∧ q.unwrite.1 = none ∧ q.unwrite.2.segments = q.segments) ∨
      ∃ xs x, q.segments.fragments = xs ++ [x] ∧ q.unwrite.1 = some x ∧
        q.unwrite.2.segments = { q.segments with fragments := xs } := by
  obtain ⟨h1, h2⟩ := segments_unwrite q
  rcases List.eq_nil_or_concat' q.segments.fragments with hn | ⟨xs, x, hx⟩
  · refine .inl ⟨hn, by rw [h1, Segments.unwrite, hn]; rfl, ?_⟩
    rw [h2, Segments.unwrite, hn, List.dropLast_nil, ← hn]
  · refine .inr ⟨xs, x, hx, ?_, ?_⟩
    · rw [h1, Segments.unwrite, hx]
      simp
    · rw [h2, Segments.unwrite, hx]
      simp

/-- What taking back up to `n` items leaves, and which items pass the test. -/
theorem segments_unwriteUpTo_ok (ok : α → Bool) (n : Nat) (q : Queue α)
    (h : q.segments.fragments.length ≤ n) :
    (unwriteUpTo ok n q).1.all ok = q.segments.fragments.all ok ∧
      (q.segments.fragments.all ok = true →
        (unwriteUpTo ok n q).1 = q.segments.fragments.reverse) ∧
      (unwriteUpTo ok n q).2.segments =
        { q.segments with fragments := (q.segments.fragments.rdropWhile ok).dropLast } := by
  induction n generalizing q with
  | zero =>
    have hn : q.segments.fragments = [] := List.length_eq_zero_iff.1 (by omega)
    refine ⟨by rw [hn]; rfl, fun _ => by rw [hn]; rfl, ?_⟩
    show q.segments = _
    rw [hn, List.rdropWhile_nil, List.dropLast_nil, ← hn]
  | succ n ih =>
    unfold unwriteUpTo
    rcases unwrite_cases q with ⟨hn, h1, h2⟩ | ⟨xs, x, hx, h1, h2⟩
    · rw [show q.unwrite = (none, q.unwrite.2) from Prod.ext h1 rfl]
      refine ⟨by rw [hn], fun _ => by rw [hn]; rfl, ?_⟩
      rw [hn, List.rdropWhile_nil, List.dropLast_nil]
      show q.unwrite.2.segments = _
      rw [h2, ← hn]
    · rw [show q.unwrite = (some x, q.unwrite.2) from Prod.ext h1 rfl]
      have hlen : q.unwrite.2.segments.fragments.length ≤ n := by
        rw [hx, List.length_append, List.length_singleton] at h
        rw [h2]
        show xs.length ≤ n
        omega
      obtain ⟨i1, i2, i3⟩ := ih q.unwrite.2 hlen
      rw [h2] at i1 i2 i3
      by_cases hok : ok x = true
      · simp only [hok, if_true]
        refine ⟨?_, fun ha => ?_, ?_⟩
        · rw [List.all_cons, i1, hx, List.all_append, List.all_cons, List.all_nil, Bool.and_true,
            Bool.and_comm]
        · rw [hx, List.all_append, Bool.and_eq_true] at ha
          rw [i2 ha.1, hx, List.reverse_append]
          rfl
        · rw [i3, hx, List.rdropWhile_concat_pos _ _ _ hok]
      · have hok' : ok x = false := by simpa using hok
        simp only [hok', Bool.false_eq_true, if_false]
        refine ⟨by simp [hx, hok'], fun ha => ?_, ?_⟩
        · rw [hx, List.all_append, List.all_cons, hok'] at ha
          simp at ha
        · rw [h2, hx, List.rdropWhile_concat_neg _ _ _ hok, List.dropLast_concat]

/-- Taking back as long as the items pass the test. -/
theorem segments_unwriteWhile (q : Queue α) (ok : α → Bool) :
    (q.unwriteWhile ok).1.all ok = q.segments.fragments.all ok ∧
      (q.segments.fragments.all ok = true →
        (q.unwriteWhile ok).1 = q.segments.fragments.reverse) ∧
      (q.unwriteWhile ok).2.segments =
        { q.segments with fragments := (q.segments.fragments.rdropWhile ok).dropLast } :=
  segments_unwriteUpTo_ok ok _ q (Nat.le_of_eq (length_fragments q))

/-! ## Looking for items -/

theorem read_nil {q : Queue α} (h : q.segments.visible = []) :
    ∃ q', q.read = (none, q') ∧ q'.segments = { q.segments with idle := true } := by
  obtain ⟨h1, h2⟩ := segments_read q
  refine ⟨q.read.2, Prod.ext ?_ rfl, ?_⟩
  · rw [h1, Segments.read, h]
    rfl
  · rw [h2, Segments.read, Segments.park, h]
    simp [h]

theorem read_cons {q : Queue α} {x : α} {xs : List α} (h : q.segments.visible = x :: xs) :
    ∃ q', q.read = (some x, q') ∧ q'.segments = { q.segments with visible := xs } := by
  obtain ⟨h1, h2⟩ := segments_read q
  refine ⟨q.read.2, Prod.ext ?_ rfl, ?_⟩
  · rw [h1, Segments.read, h]
    rfl
  · rw [h2, Segments.read, park_of_visible (by simp [h]), h]
    rfl

theorem checkRead_nil {q : Queue α} (h : q.segments.visible = []) :
    ∃ q', q.checkRead = (false, q') ∧ q'.segments = { q.segments with idle := true } := by
  obtain ⟨h1, h2⟩ := segments_checkRead q
  refine ⟨q.checkRead.2, Prod.ext ?_ rfl, ?_⟩
  · rw [h1, Segments.checkRead, h]
    rfl
  · rw [h2, Segments.checkRead, Segments.park, h]
    simp [h]

theorem checkRead_cons {q : Queue α} {x : α} {xs : List α} (h : q.segments.visible = x :: xs) :
    ∃ q', q.checkRead = (true, q') ∧ q'.segments = q.segments := by
  obtain ⟨h1, h2⟩ := segments_checkRead q
  refine ⟨q.checkRead.2, Prod.ext ?_ rfl, ?_⟩
  · rw [h1, Segments.checkRead, h]
    rfl
  · rw [h2, Segments.checkRead, park_of_visible (by simp [h])]

theorem probe_cons {q : Queue α} {x : α} {xs : List α} (h : q.segments.visible = x :: xs) :
    ∃ q', q.probe = (some x, q') ∧ q'.segments = q.segments := by
  obtain ⟨h1, h2⟩ := segments_probe q
  refine ⟨q.probe.2, Prod.ext ?_ rfl, ?_⟩
  · rw [h1, Segments.probe, h]
    rfl
  · rw [h2, Segments.probe, park_of_visible (by simp [h])]

end Queue

/-! ## Staging runs of frames -/

/-- A run of frames with no message left open at its end. -/
def Whole (fs : List Frame) : Prop :=
  ∀ f, fs.getLast? = some f → f.hasMore = false

theorem whole_nil : Whole [] := fun _ h => by cases h

theorem whole_concat {fs : List Frame} {f : Frame} : Whole (fs ++ [f]) ↔ f.hasMore = false := by
  simp [Whole]

theorem whole_of_cons {f : Frame} {fs : List Frame} (h : Whole (f :: fs)) : Whole fs := by
  rcases List.eq_nil_or_concat' fs with rfl | ⟨fs, g, rfl⟩
  · exact whole_nil
  · rw [← List.cons_append] at h
    exact whole_concat.2 (whole_concat.1 h)

namespace Segments

/-- Stages frames in order. -/
def writeAll (s : Segments Frame) (incomplete : Frame → Bool) (fs : List Frame) :
    Segments Frame :=
  fs.foldl (fun s f => s.write f (incomplete f)) s

theorem writeAll_concat (s : Segments Frame) (incomplete : Frame → Bool) (fs : List Frame)
    (f : Frame) : s.writeAll incomplete (fs ++ [f]) =
      (s.writeAll incomplete fs).write f (incomplete f) := by
  simp [writeAll]

/-- Staging fragments adds them to those that are there. -/
theorem writeAll_incomplete (s : Segments Frame) (fs : List Frame) :
    s.writeAll (fun _ => true) fs = { s with fragments := s.fragments ++ fs } := by
  induction fs using List.reverseRecOn with
  | nil => simp [writeAll]
  | append_singleton fs f ih => simp [writeAll_concat, ih, write]

/-- Staged frames are ready or fragments, in order; nothing else changes. -/
theorem writeAll_staged (s : Segments Frame) (incomplete : Frame → Bool) (fs : List Frame) :
    (s.writeAll incomplete fs).ready ++ (s.writeAll incomplete fs).fragments =
        s.ready ++ s.fragments ++ fs ∧
      (s.writeAll incomplete fs).visible = s.visible ∧
      (s.writeAll incomplete fs).idle = s.idle := by
  induction fs using List.reverseRecOn with
  | nil => simp [writeAll]
  | append_singleton fs f ih =>
    obtain ⟨h1, h2, h3⟩ := ih
    rw [writeAll_concat, ← List.append_assoc, ← h1]
    unfold write
    split
    · exact ⟨by simp, h2, h3⟩
    · exact ⟨by simp, h2, h3⟩

/-- Staging a run of frames that ends with a message makes all of it ready. -/
theorem writeAll_whole {s : Segments Frame} {fs : List Frame} (hs : s.fragments = [])
    (h : Whole fs) : s.writeAll Frame.hasMore fs = { s with ready := s.ready ++ fs } := by
  rcases List.eq_nil_or_concat' fs with rfl | ⟨fs, f, rfl⟩
  · simp [writeAll]
  · obtain ⟨h1, h2, h3⟩ := writeAll_staged s Frame.hasMore fs
    have hf : f.hasMore = false := whole_concat.1 h
    rw [writeAll_concat, hf, write]
    simp only [Bool.false_eq_true, if_false, h1, h2, h3, hs, List.append_nil, List.append_assoc]

/-- The command that tells the reader of a flush, where it has to be told. -/
def wake (s : Segments Frame) : List Command :=
  if s.flush.1 then [.activateRead] else []

theorem filter_wake {k : Command → Bool} (h : k .activateRead = false) (s : Segments Frame) :
    s.wake.filter k = [] := by
  unfold wake
  split
  · rw [List.filter_cons_of_neg (by simp [h]), List.filter_nil]
  · rfl

/-- The segments after the fragments of an open message are dropped and a delimiter is staged. -/
def ended (s : Segments Frame) : Segments Frame :=
  { s with fragments := [] }.write .delimiter false

end Segments

/-! ## Views -/

/-- What every queue holds. -/
abbrev View := QueueId → Segments Frame

/-- What the queues of a table hold. -/
def Queues.view (qs : Queues) : View :=
  fun id => (qs.get id).segments

theorem Queues.view_set (qs : Queues) (id : QueueId) (q : Queue Frame) :
    (qs.set id q).view = Function.update qs.view id q.segments := by
  funext id'
  by_cases h : id' = id
  · subst h
    rw [view, get_set_self, Function.update_self]
  · rw [view, get_set_of_ne qs q h, Function.update_of_ne h]
    rfl

namespace View

theorem visible_update_self (v : View) (q : QueueId) (s : Segments Frame) :
    (Function.update v q s q).visible = s.visible := by
  rw [Function.update_self]

/-- Moves what the queue `old` holds to the queue `writer`: what the reader `retired` still gets,
and behind it the fragments. -/
def moveStream (v : View) (old writer retired : QueueId) : View :=
  let drained := Function.update v old { (v old).flush.2 with fragments := [] }
  let read := Function.update drained retired
    { drained retired with visible := [], idle := true }
  Function.update read writer
    (((read writer).writeAll Frame.hasMore (drained retired).visible).writeAll (fun _ => true)
      (v old).fragments)

theorem moveStream_of_ne (v : View) {old writer retired id : QueueId} (ho : id ≠ old)
    (hw : id ≠ writer) (hr : id ≠ retired) : v.moveStream old writer retired id = v id := by
  unfold moveStream
  simp only
  rw [Function.update_of_ne hw, Function.update_of_ne hr, Function.update_of_ne ho]

end View

theorem Segments.visible_flush (s : Segments Frame) :
    s.flush.2.visible = s.visible ++ s.ready := by
  unfold flush
  split
  · next h => rw [h, List.append_nil]
  · rfl

theorem Segments.fragments_flush (s : Segments Frame) : s.flush.2.fragments = s.fragments := by
  unfold flush
  split <;> rfl

theorem Segments.ready_flush (s : Segments Frame) : s.flush.2.ready = [] := by
  unfold flush
  split
  · next h => exact h
  · rfl

/-- Nothing is left, published or staged, where a stream was moved from. -/
theorem View.moveStream_retired (v : View) {old writer : QueueId} (hw : writer ≠ old) :
    v.moveStream old writer old old = { idle := true } := by
  unfold moveStream
  simp only
  rw [Function.update_of_ne hw.symm, Function.update_self, Function.update_self,
    Segments.ready_flush]

/-- The fresh queue a stream is moved to holds all of it, complete messages ready. -/
theorem View.moveStream_writer (v : View) {old writer : QueueId} (hw : writer ≠ old)
    (hb : (v writer).all = []) (hv : Whole ((v old).visible ++ (v old).ready)) :
    v.moveStream old writer old writer =
      { visible := [], ready := (v old).visible ++ (v old).ready, fragments := (v old).fragments,
        idle := (v writer).idle } := by
  simp only [Segments.all, List.append_eq_nil_iff] at hb
  obtain ⟨⟨h1, h2⟩, h3⟩ := hb
  unfold moveStream
  simp only [Function.update_self, Function.update_of_ne hw, Segments.visible_flush]
  rw [Segments.writeAll_whole h3 hv, Segments.writeAll_incomplete]
  simp [h1, h2, h3]

end MessagePipe
