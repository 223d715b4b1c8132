import MessagePipe.Queue.Request

/-!
# A queue as three segments and a flag

`Segments` says what a queue holds without cursors: the published items, the complete items no flush
has reached, the fragments of an open message, and whether the reader has parked. It is the queue of
§3 of the specification, where a flush makes a whole batch visible at once. Each operation of a
queue has its counterpart here, in terms of lists only.

`Queue.segments` is the view of a queue, and every operation commutes with it:

* `segments_write`, `segments_unwrite`, `segments_flush`, `hasUnflushed_eq`: the writing end;
* `segments_checkRead`, `segments_probe`, `segments_read`, `idle_eq`: the reading end;
* `segments_unwriteAll`, `segments_readAll`, `segments_writeAll`: several items at once, as a pipe
  that rolls back, takes itself down or moves a stream does.

So a statement about queues follows from the statement about segments, and the results about pipes
never speak of a cursor. What the view leaves out is `prefetched`, which no answer depends on:
`hasPrefetched_visible` says that a reader that has prefetched something still finds it published.

A flush answers whether the reader had parked, and only then is it woken: `Segments.flush` answers
yes exactly if it publishes something to a reader that had parked, and un-parks it in doing so. An
end that reads and finds nothing parks (`Segments.park`), whichever of the three reading operations
it was. These two rules are all there is to wake-ups.

For whole histories it is stated in `Proofs/History`.
-/

namespace MessagePipe

universe u

/-- The items of a queue, by how far they have come. -/
structure Segments (α : Type u) where
  /-- Published items, oldest first. -/
  visible : List α := []
  /-- Complete items that no flush has published. -/
  ready : List α := []
  /-- The items of an open message. -/
  fragments : List α := []
  /-- Has the reader parked? -/
  idle : Bool := false
deriving DecidableEq, Repr

namespace Segments

variable {α : Type u}

/-- An incomplete item becomes a fragment; a complete one makes all fragments ready. -/
def write (s : Segments α) (x : α) (incomplete : Bool) : Segments α :=
  if incomplete then { s with fragments := s.fragments ++ [x] }
  else { s with ready := s.ready ++ s.fragments ++ [x], fragments := [] }

/-- Removes the last fragment. -/
def unwrite (s : Segments α) : Option α × Segments α :=
  (s.fragments.getLast?, { s with fragments := s.fragments.dropLast })

/-- Makes what is ready visible, and tells whether that wakes a parked reader. -/
def flush (s : Segments α) : Bool × Segments α :=
  if s.ready = [] then (false, s)
  else (s.idle, { s with visible := s.visible ++ s.ready, ready := [], idle := false })

/-- Is anything staged? -/
def hasUnflushed (s : Segments α) : Bool :=
  !(s.ready.isEmpty && s.fragments.isEmpty)

/-- Parks the reader if nothing is visible. -/
def park (s : Segments α) : Segments α :=
  { s with idle := s.idle || s.visible.isEmpty }

/-- Is an item visible? -/
def checkRead (s : Segments α) : Bool × Segments α :=
  (!s.visible.isEmpty, s.park)

/-- The first visible item. -/
def probe (s : Segments α) : Option α × Segments α :=
  (s.visible.head?, s.park)

/-- Removes the first visible item. -/
def read (s : Segments α) : Option α × Segments α :=
  (s.visible.head?, { s.park with visible := s.visible.tail })

/-- Does an operation. -/
def serve (s : Segments α) : Queue.Request α → Queue.Response α × Segments α
  | .write x incomplete => (.done, s.write x incomplete)
  | .unwrite => (.item s.unwrite.1, s.unwrite.2)
  | .flush => (.flag s.flush.1, s.flush.2)
  | .hasUnflushed => (.flag s.hasUnflushed, s)
  | .checkRead => (.flag s.checkRead.1, s.checkRead.2)
  | .probe => (.item s.probe.1, s.probe.2)
  | .read => (.item s.read.1, s.read.2)

/-- Everything stored, oldest first. -/
def all (s : Segments α) : List α :=
  s.visible ++ s.ready ++ s.fragments

theorem all_write (s : Segments α) (x : α) (incomplete : Bool) :
    (s.write x incomplete).all = s.all ++ [x] := by
  unfold write all
  split <;> simp

theorem all_unwrite (s : Segments α) : s.unwrite.2.all ++ s.unwrite.1.toList = s.all := by
  have h : s.fragments.dropLast ++ s.fragments.getLast?.toList = s.fragments := by
    rcases List.eq_nil_or_concat s.fragments with h | ⟨fs, x, h⟩ <;> simp [h]
  unfold unwrite all
  rw [List.append_assoc, h]

theorem all_flush (s : Segments α) : s.flush.2.all = s.all := by
  unfold flush
  split
  · rfl
  · simp [all]

theorem all_park (s : Segments α) : s.park.all = s.all := rfl

theorem all_read (s : Segments α) : s.read.1.toList ++ s.read.2.all = s.all := by
  unfold read all
  cases s.visible <;> rfl

end Segments

namespace Queue

variable {α : Type u}

/-- What a queue holds. -/
def segments (q : Queue α) : Segments α where
  visible := q.items.toList.take (q.flushed - q.front)
  ready := (q.items.toList.take (q.complete - q.front)).drop (q.flushed - q.front)
  fragments := q.items.toList.drop (q.complete - q.front)
  idle := q.idle

/-- Nothing is stored outside the segments. -/
theorem all_segments (q : Queue α) : q.segments.all = q.items.toList := by
  have h : q.flushed - q.front ≤ q.complete - q.front := by
    have := q.flushed_le; omega
  have ht := List.take_append_drop (q.flushed - q.front)
    (q.items.toList.take (q.complete - q.front))
  rw [List.take_take, Nat.min_eq_left h] at ht
  simp only [segments, Segments.all]
  rw [ht, List.take_append_drop]

/-- Three lists that make up the stored items and fit the cursors are the segments. -/
theorem segments_eq (q : Queue α) (xs ys zs : List α) (h : q.items.toList = xs ++ ys ++ zs)
    (hx : xs.length = q.flushed - q.front) (hy : ys.length = q.complete - q.flushed) :
    q.segments = { visible := xs, ready := ys, fragments := zs, idle := q.idle } := by
  have hc : q.complete - q.front = (xs ++ ys).length := by
    have := q.front_le; have := q.flushed_le
    simp only [List.length_append]; omega
  simp only [segments, h, ← hx, hc, List.take_left, List.drop_left]
  simp

theorem length_visible (q : Queue α) : q.segments.visible.length = q.flushed - q.front := by
  have := q.front_le; have := q.flushed_le; have := q.complete_le
  simp only [segments, List.length_take, q.length_eq]; omega

theorem length_ready (q : Queue α) : q.segments.ready.length = q.complete - q.flushed := by
  have := q.front_le; have := q.flushed_le; have := q.complete_le
  simp only [segments, List.length_drop, List.length_take, q.length_eq]; omega

theorem length_fragments (q : Queue α) : q.segments.fragments.length = q.back - q.complete := by
  have := q.front_le; have := q.flushed_le; have := q.complete_le
  simp only [segments, List.length_drop, q.length_eq]; omega

theorem ready_eq_nil_iff (q : Queue α) : q.segments.ready = [] ↔ q.flushed = q.complete := by
  have := q.flushed_le
  rw [← List.length_eq_zero_iff, length_ready]; omega

theorem fragments_eq_nil_iff (q : Queue α) :
    q.segments.fragments = [] ↔ q.complete = q.back := by
  have := q.complete_le
  rw [← List.length_eq_zero_iff, length_fragments]; omega

theorem visible_eq_nil_iff (q : Queue α) : q.segments.visible = [] ↔ q.front = q.flushed := by
  have := q.front_le
  rw [← List.length_eq_zero_iff, length_visible]; omega

@[simp] theorem segments_empty : (empty : Queue α).segments = {} := rfl

theorem idle_eq (q : Queue α) : q.idle = q.segments.idle := rfl

/-! ## The writing end -/

theorem segments_write (q : Queue α) (x : α) (incomplete : Bool) :
    (q.write x incomplete).segments = q.segments.write x incomplete := by
  have ha := all_segments q
  have hv := length_visible q
  have hr := length_ready q
  have hf := length_fragments q
  have := q.front_le; have := q.flushed_le; have := q.complete_le
  rw [Segments.all] at ha
  cases incomplete with
  | true =>
    refine (segments_eq (q.write x true) q.segments.visible q.segments.ready
      (q.segments.fragments ++ [x]) ?_ hv hr).trans rfl
    simp [write, ← ha]
  | false =>
    refine (segments_eq (q.write x false) q.segments.visible
      (q.segments.ready ++ q.segments.fragments ++ [x]) [] ?_ hv ?_).trans ?_
    · simp [write, ← ha]
    · simp only [List.length_append, List.length_singleton, hr, hf, write]
      simp only [Bool.false_eq_true, if_false]
      omega
    · simp [Segments.write, write, idle, segments]

theorem segments_unwrite (q : Queue α) :
    q.unwrite.1 = q.segments.unwrite.1 ∧ q.unwrite.2.segments = q.segments.unwrite.2 := by
  have ha := all_segments q
  have hv := length_visible q
  have hr := length_ready q
  rw [Segments.all] at ha
  unfold unwrite
  split
  · next hb =>
    have hn : q.segments.fragments = [] := (fragments_eq_nil_iff q).2 hb
    constructor
    · simp [Segments.unwrite, hn]
    · simp only [Segments.unwrite, hn, List.dropLast_nil]
      rw [← hn]
  · next hb =>
    have hne : q.segments.fragments ≠ [] := fun h => hb ((fragments_eq_nil_iff q).1 h)
    split
    · next h =>
      have := Chain.unpush?_eq_none h
      rw [this] at ha
      simp_all
    · next x items h =>
      have hi := Chain.unpush?_eq_some h
      rw [← ha] at hi
      have hl := List.dropLast_concat_getLast hne
      rw [← hl, ← List.append_assoc] at hi
      obtain ⟨hi, hx⟩ := List.append_inj' hi rfl
      have hx : q.segments.fragments.getLast hne = x := by simpa using hx
      refine ⟨?_, segments_eq _ q.segments.visible q.segments.ready
        q.segments.fragments.dropLast hi.symm hv hr⟩
      simp [Segments.unwrite, List.getLast?_eq_some_getLast hne, hx]

theorem segments_flush (q : Queue α) :
    q.flush.1 = q.segments.flush.1 ∧ q.flush.2.segments = q.segments.flush.2 := by
  have ha := all_segments q
  have hv := length_visible q
  have hr := length_ready q
  rw [Segments.all] at ha
  have hle := q.front_le; have hle' := q.flushed_le
  unfold flush Segments.flush
  split
  · next h =>
    rw [if_pos ((ready_eq_nil_iff q).2 h)]
    exact ⟨rfl, rfl⟩
  · next h =>
    rw [if_neg (fun h' => h ((ready_eq_nil_iff q).1 h'))]
    constructor
    · show (!decide (q.published = some q.flushed)) = q.published.isNone
      rcases q.published_eq with hp | ⟨hp, _⟩ <;> simp [hp]
    · refine (segments_eq _ (q.segments.visible ++ q.segments.ready) []
        q.segments.fragments ?_ ?_ ?_).trans rfl
      · simp [← ha]
      · show (q.segments.visible ++ q.segments.ready).length = q.complete - q.front
        rw [List.length_append, hv, hr]
        omega
      · show 0 = q.complete - q.complete
        omega

theorem hasUnflushed_eq (q : Queue α) : q.hasUnflushed = q.segments.hasUnflushed := by
  have := q.flushed_le; have := q.complete_le
  have hr := ready_eq_nil_iff q
  have hf := fragments_eq_nil_iff q
  rw [Bool.eq_iff_iff]
  simp only [hasUnflushed, Segments.hasUnflushed, decide_eq_true_eq, Bool.not_eq_true',
    Bool.and_eq_false_iff, List.isEmpty_eq_false_iff, ne_eq, hr, hf]
  omega

/-! ## The reading end -/

theorem hasPrefetched_visible {q : Queue α} (h : q.hasPrefetched = true) :
    q.segments.visible ≠ [] := by
  rw [ne_eq, visible_eq_nil_iff]
  have := (front_lt_of_hasPrefetched h).1
  omega

/-- Looking at the shared point finds an item exactly if one is visible, and parks otherwise. -/
theorem segments_prefetch (q : Queue α) :
    q.prefetch.hasPrefetched = !q.segments.visible.isEmpty ∧
      q.prefetch.segments = q.segments.park := by
  have hv := visible_eq_nil_iff q
  unfold prefetch
  split
  · next h =>
    have hff : q.front = q.flushed := by
      rcases q.published_eq with hp | ⟨hn, _⟩
      · exact Option.some.inj (h.symm.trans hp)
      · rw [hn] at h; cases h
    have hn := hv.2 hff
    constructor
    · simp [hasPrefetched, hn]
    · simp only [segments, idle, Segments.park, Option.isNone_none, Segments.mk.injEq, true_and]
      have : q.items.toList.take (q.flushed - q.front) = [] := hn
      simp [this]
  · next h =>
    rcases q.published_eq with hp | ⟨hp, hff⟩
    · have hne : ¬ q.front = q.flushed := fun he => h (he ▸ hp)
      have hnv : q.segments.visible ≠ [] := fun he => hne (hv.1 he)
      have hemp : q.segments.visible.isEmpty = false := by simpa using hnv
      constructor
      · rw [hemp]
        simp only [hasPrefetched, hp]
        simp
        omega
      · simp only [Segments.park, hemp, Bool.or_false]
        rfl
    · have hnv := hv.2 hff
      constructor
      · simp [hasPrefetched, hp, hnv]
      · have hidle : q.segments.idle = true := by simp [segments, idle, hp]
        simp only [Segments.park, hidle, Bool.true_or]
        rw [← hidle]
        rfl

theorem park_of_visible {s : Segments α} (h : s.visible ≠ []) : s.park = s := by
  have : s.visible.isEmpty = false := by simpa using h
  simp [Segments.park, this]

theorem segments_checkRead (q : Queue α) :
    q.checkRead.1 = q.segments.checkRead.1 ∧ q.checkRead.2.segments = q.segments.checkRead.2 := by
  unfold checkRead Segments.checkRead
  split
  · next h =>
    have hv := hasPrefetched_visible h
    exact ⟨by simpa using hv, (park_of_visible hv).symm⟩
  · exact segments_prefetch q

theorem segments_advance (q : Queue α) (h : q.hasPrefetched = true) :
    (q.advance h).1 = q.segments.visible.head? ∧
      (q.advance h).2.segments = { q.segments with visible := q.segments.visible.tail } := by
  have hv := hasPrefetched_visible h
  have ha := all_segments q
  have hlv := length_visible q
  have hlr := length_ready q
  rw [Segments.all] at ha
  unfold advance
  split
  · next hp =>
    rw [Chain.pop?_eq_none hp] at ha
    simp_all
  · next x items hp =>
    have hi := Chain.pop?_eq_some hp
    rw [← ha] at hi
    obtain ⟨y, ys, hy⟩ := List.exists_cons_of_ne_nil hv
    rw [hy] at hi hlv
    simp only [List.cons_append, List.cons.injEq] at hi
    obtain ⟨rfl, hi⟩ := hi
    refine ⟨by simp [hy], ?_⟩
    rw [hy]
    refine segments_eq _ ys q.segments.ready q.segments.fragments hi.symm ?_ hlr
    show ys.length = q.flushed - (q.front + 1)
    simp only [List.length_cons] at hlv
    omega

theorem segments_read (q : Queue α) :
    q.read.1 = q.segments.read.1 ∧ q.read.2.segments = q.segments.read.2 := by
  unfold read Segments.read
  split
  · next h =>
    have hv := hasPrefetched_visible h
    rw [park_of_visible hv]
    exact segments_advance q h
  · have hp := segments_prefetch q
    split
    · next h' =>
      have := segments_advance q.prefetch h'
      rw [hp.2] at this
      exact this
    · next h' =>
      have hn : q.segments.visible = [] := by
        have h' : q.prefetch.hasPrefetched = false := by simpa using h'
        rw [hp.1] at h'
        simpa using h'
      refine ⟨by simp [hn], ?_⟩
      rw [hp.2]
      simp [Segments.park, hn]

theorem segments_probe (q : Queue α) :
    q.probe.1 = q.segments.probe.1 ∧ q.probe.2.segments = q.segments.probe.2 := by
  have hc := segments_checkRead q
  unfold probe
  split
  · next q' h =>
    rw [h] at hc
    obtain ⟨h1, h2⟩ := hc
    have hv : q.segments.visible ≠ [] := by
      intro he
      simp [Segments.checkRead, he] at h1
    refine ⟨?_, h2⟩
    have ha := all_segments q'
    have hs : q'.segments = q.segments := h2.trans (park_of_visible hv)
    rw [hs, Segments.all] at ha
    obtain ⟨y, ys, hy⟩ := List.exists_cons_of_ne_nil hv
    simp [Chain.head?_eq, ← ha, Segments.probe, hy]
  · next q' h =>
    rw [h] at hc
    obtain ⟨h1, h2⟩ := hc
    have hv : q.segments.visible = [] := by
      simpa [Segments.checkRead] using h1.symm
    exact ⟨by simp [Segments.probe, hv], h2⟩

/-! ## Several items at once -/

theorem segments_writeAll (q : Queue α) (incomplete : α → Bool) (xs : List α) :
    (q.writeAll incomplete xs).segments =
      xs.foldl (fun s x => s.write x (incomplete x)) q.segments := by
  unfold writeAll
  induction xs generalizing q with
  | nil => rfl
  | cons x xs ih => simp only [List.foldl_cons, ih, segments_write]

theorem segments_readUpTo (n : Nat) (q : Queue α) (h : q.segments.visible.length < n) :
    (readUpTo n q).1 = q.segments.visible ∧
      (readUpTo n q).2.segments = { q.segments with visible := [], idle := true } := by
  induction n generalizing q with
  | zero => omega
  | succ n ih =>
    have hr := segments_read q
    unfold readUpTo
    split
    · next q' he =>
      rw [he] at hr
      obtain ⟨h1, h2⟩ := hr
      have hv : q.segments.visible = [] := by
        simpa [Segments.read] using h1.symm
      refine ⟨hv.symm, ?_⟩
      simp only [h2, Segments.read, Segments.park, hv]
      simp
    · next x q' he =>
      rw [he] at hr
      obtain ⟨h1, h2⟩ := hr
      obtain ⟨ys, hy⟩ : ∃ ys, q.segments.visible = x :: ys := by
        cases hv : q.segments.visible with
        | nil => simp [Segments.read, hv] at h1
        | cons y ys => simp [Segments.read, hv] at h1; exact ⟨ys, by rw [h1]⟩
      have h2' : q'.segments = { q.segments with visible := ys } := by
        have hp : q.segments.park = q.segments := park_of_visible (by simp [hy])
        rw [h2, Segments.read, hp, hy]
        rfl
      have hlt : q'.segments.visible.length < n := by
        simp only [h2', hy, List.length_cons] at h ⊢
        omega
      have := ih q' hlt
      simp only [h2'] at this
      exact ⟨by simp only [hy, this.1], this.2⟩

/-- Reading until nothing is left takes every visible item and parks the reader. -/
theorem segments_readAll (q : Queue α) :
    q.readAll.1 = q.segments.visible ∧
      q.readAll.2.segments = { q.segments with visible := [], idle := true } := by
  refine segments_readUpTo _ q ?_
  have := length_visible q
  have := q.flushed_le; have := q.complete_le
  omega

theorem segments_unwriteUpTo (n : Nat) (q : Queue α) (h : q.segments.fragments.length ≤ n) :
    (unwriteUpTo (fun _ => true) n q).1 = q.segments.fragments.reverse ∧
      (unwriteUpTo (fun _ => true) n q).2.segments = { q.segments with fragments := [] } := by
  induction n generalizing q with
  | zero =>
    have hn : q.segments.fragments = [] := List.length_eq_zero_iff.1 (by omega)
    refine ⟨by rw [hn]; rfl, ?_⟩
    show q.segments = { q.segments with fragments := [] }
    rw [← hn]
  | succ n ih =>
    have hu := segments_unwrite q
    unfold unwriteUpTo
    split
    · next q' he =>
      rw [he] at hu
      obtain ⟨h1, h2⟩ := hu
      have hn : q.segments.fragments = [] := by
        simpa [Segments.unwrite] using h1.symm
      refine ⟨by simp [hn], ?_⟩
      simp [h2, Segments.unwrite, hn]
    · next x q' he =>
      rw [he] at hu
      obtain ⟨h1, h2⟩ := hu
      have hne : q.segments.fragments ≠ [] := by
        intro hn
        simp [Segments.unwrite, hn] at h1
      have hx : q.segments.fragments = q.segments.fragments.dropLast ++ [x] := by
        have hl := List.dropLast_concat_getLast hne
        have hg : q.segments.fragments.getLast hne = x := by
          simp only [Segments.unwrite, List.getLast?_eq_some_getLast hne, Option.some.injEq] at h1
          exact h1.symm
        rw [hg] at hl
        exact hl.symm
      have hle : q'.segments.fragments.length ≤ n := by
        simp only [h2, Segments.unwrite, List.length_dropLast]
        omega
      have := ih q' hle
      simp only [h2, Segments.unwrite] at this
      simp only [if_true]
      refine ⟨?_, this.2⟩
      rw [this.1, ← List.reverse_concat, ← hx]

/-- Taking everything back returns the fragments, newest first, and leaves none. -/
theorem segments_unwriteAll (q : Queue α) :
    q.unwriteAll.1 = q.segments.fragments.reverse ∧
      q.unwriteAll.2.segments = { q.segments with fragments := [] } :=
  segments_unwriteUpTo _ q (Nat.le_of_eq (length_fragments q))

end Queue

end MessagePipe
