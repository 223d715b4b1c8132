import MessagePipe.Chain

/-!
# The queue of one direction: staged writing, batched publishing, a reader that parks

One writer and one reader share a queue (§4.1 of the specification). The writer stages items at the
back and publishes them in batches; the reader takes published items from the front. Every item has
a position, counted from the first item ever written, and cursors split the stored items:

```text
  front ......... flushed ......... complete ......... back
  |  published    |  complete,      |  fragments of    |
  |               |  unflushed      |  an open message |
```

In the program the items sit in a chain of nodes that ends in an empty one, and the cursors are
pointers to nodes: `back`, `w` (here `flushed`) and `f` (`complete`) on the writer's side, `front`
and `r` (`prefetched`) on the reader's. Here they are positions; `Proofs/Linked` shows that a queue
of nodes and pointers, with an allocator that may use an address again, does the same.

The two ends agree through one shared point, `published` (the pointer `c`). It is the first
unpublished position, or `none` once the reader has found nothing to read and parked. `Queue.flush`
swaps it from `flushed` to `complete`; where the swap fails the reader is parked and has to be
woken. `Queue.prefetch` swaps it from `front` to `none`, or takes over what is there. The reader
keeps in `prefetched` what it last saw of the shared point, and looks again only once it has read up
to it.

The order of the cursors and what the shared point can hold are part of the type, so every queue
there is satisfies them. `Queue.segments`, in `Queue/Segments`, is the view all laws are stated
through.

Out of scope: the memory order of the swaps. A compare-and-swap is one step of one end, so a history
is any interleaving of whole operations of the two ends.
-/

namespace MessagePipe

universe u

/-- A queue of one writer and one reader. -/
structure Queue (α : Type u) where
  /-- The stored items, oldest first: positions `front` up to `back`. -/
  items : Chain α
  /-- The position of the next item to read. -/
  front : Nat
  /-- The first position that no flush has reached. -/
  flushed : Nat
  /-- The first position of an open message: the next flush reaches up to here. -/
  complete : Nat
  /-- The position the next item is written to. -/
  back : Nat
  /-- The shared point: the first unpublished position, `none` while the reader is parked. -/
  published : Option Nat
  /-- The shared point as the reader last saw it. -/
  prefetched : Option Nat
  /-- What was read was flushed. -/
  front_le : front ≤ flushed
  /-- Only complete messages are flushed. -/
  flushed_le : flushed ≤ complete
  /-- A complete message was written. -/
  complete_le : complete ≤ back
  /-- The stored items lie between the first and the last cursor. -/
  length_eq : items.toList.length = back - front
  /-- The shared point is where the last flush ended, or the reader has parked with nothing left. -/
  published_eq : published = some flushed ∨ published = none ∧ front = flushed
  /-- The reader never saw further than the last flush, nor does it look back. -/
  prefetched_le : ∀ p, prefetched = some p → front ≤ p ∧ p ≤ flushed

namespace Queue

variable {α : Type u}

/-- A queue nothing was written to, with a reader that has not looked yet. -/
def empty : Queue α where
  items := .empty
  front := 0
  flushed := 0
  complete := 0
  back := 0
  published := some 0
  prefetched := some 0
  front_le := Nat.le_refl 0
  flushed_le := Nat.le_refl 0
  complete_le := Nat.le_refl 0
  length_eq := rfl
  published_eq := .inl rfl
  prefetched_le := fun p h => by cases h; exact ⟨Nat.le_refl 0, Nat.le_refl 0⟩

instance : Inhabited (Queue α) := ⟨empty⟩

/-! ## The writing end -/

/-- Stages an item. One that is `incomplete` is held back from every flush until a later complete
item closes the message it belongs to. -/
def write (q : Queue α) (x : α) (incomplete : Bool) : Queue α where
  items := q.items.push x
  front := q.front
  flushed := q.flushed
  complete := if incomplete then q.complete else q.back + 1
  back := q.back + 1
  published := q.published
  prefetched := q.prefetched
  front_le := q.front_le
  flushed_le := by have := q.flushed_le; have := q.complete_le; split <;> omega
  complete_le := by have := q.complete_le; split <;> omega
  length_eq := by
    have := q.front_le; have := q.flushed_le; have := q.complete_le
    simp only [Chain.toList_push, List.length_append, List.length_singleton, q.length_eq]
    omega
  published_eq := q.published_eq
  prefetched_le := q.prefetched_le

/-- Takes back the newest item while it belongs to an open message; `none` once only complete
items remain. -/
def unwrite (q : Queue α) : Option α × Queue α :=
  if hb : q.complete = q.back then (none, q)
  else
    match h : q.items.unpush? with
    | none => (none, q)
    | some (x, items) =>
      (some x,
        { items
          front := q.front
          flushed := q.flushed
          complete := q.complete
          back := q.back - 1
          published := q.published
          prefetched := q.prefetched
          front_le := q.front_le
          flushed_le := q.flushed_le
          complete_le := by have := q.complete_le; omega
          length_eq := by
            have := congrArg List.length (Chain.unpush?_eq_some h)
            rw [q.length_eq, List.length_append, List.length_singleton] at this
            omega
          published_eq := q.published_eq
          prefetched_le := q.prefetched_le })

/-- Publishes every complete staged item. The result is `true` when there was one and the reader
had parked, so that it has to be told. -/
def flush (q : Queue α) : Bool × Queue α :=
  if q.flushed = q.complete then (false, q)
  else
    (!decide (q.published = some q.flushed),
      { q with
        flushed := q.complete
        published := some q.complete
        front_le := Nat.le_trans q.front_le q.flushed_le
        flushed_le := Nat.le_refl _
        published_eq := .inl rfl
        prefetched_le := fun p h =>
          ⟨(q.prefetched_le p h).1, Nat.le_trans (q.prefetched_le p h).2 q.flushed_le⟩ })

/-- Was anything written that no flush has published? -/
def hasUnflushed (q : Queue α) : Bool :=
  decide (q.flushed ≠ q.back)

/-! ## The reading end -/

/-- Does what the reader saw of the shared point reach beyond `front`? -/
def hasPrefetched (q : Queue α) : Bool :=
  match q.prefetched with
  | some p => decide (p ≠ q.front)
  | none => false

/-- Looks at the shared point again, parking the reader if nothing new is published. -/
def prefetch (q : Queue α) : Queue α :=
  if h : q.published = some q.front then
    { q with
      published := none
      prefetched := some q.front
      published_eq := .inr ⟨rfl, by
        rcases q.published_eq with he | ⟨hn, _⟩
        · exact Option.some.inj (h.symm.trans he)
        · rw [hn] at h; cases h⟩
      prefetched_le := fun p hp => by cases hp; exact ⟨Nat.le_refl _, q.front_le⟩ }
  else
    { q with
      prefetched := q.published
      prefetched_le := fun p hp => by
        rcases q.published_eq with he | ⟨hn, _⟩
        · rw [hp] at he; cases he; exact ⟨q.front_le, Nat.le_refl _⟩
        · rw [hn] at hp; cases hp }

/-- Is a published item there to be read? Where none is, the reader parks, so that the next flush
that publishes something reports it. -/
def checkRead (q : Queue α) : Bool × Queue α :=
  if q.hasPrefetched then (true, q)
  else (q.prefetch.hasPrefetched, q.prefetch)

/-- Has the reader parked? -/
def idle (q : Queue α) : Bool :=
  q.published.isNone

theorem front_lt_of_hasPrefetched {q : Queue α} (h : q.hasPrefetched = true) :
    q.front < q.flushed ∧ ∀ p, q.prefetched = some p → q.front < p := by
  unfold hasPrefetched at h
  split at h
  · next p hp =>
    have hne : p ≠ q.front := by simpa using h
    have := q.prefetched_le p hp
    refine ⟨by omega, fun p' hp' => ?_⟩
    rw [hp] at hp'
    cases hp'
    omega
  · cases h

/-- Removes the oldest item, for a reader that has seen it published. -/
def advance (q : Queue α) (h : q.hasPrefetched = true) : Option α × Queue α :=
  match hp : q.items.pop? with
  | none => (none, q)
  | some (x, items) =>
    (some x,
      { items
        front := q.front + 1
        flushed := q.flushed
        complete := q.complete
        back := q.back
        published := q.published
        prefetched := q.prefetched
        front_le := (front_lt_of_hasPrefetched h).1
        flushed_le := q.flushed_le
        complete_le := q.complete_le
        length_eq := by
          have := congrArg List.length (Chain.pop?_eq_some hp)
          rw [q.length_eq, List.length_cons] at this
          omega
        published_eq := by
          rcases q.published_eq with he | ⟨_, hf⟩
          · exact .inl he
          · have := (front_lt_of_hasPrefetched h).1; omega
        prefetched_le := fun p hp' =>
          ⟨(front_lt_of_hasPrefetched h).2 p hp', (q.prefetched_le p hp').2⟩ })

/-- Removes the oldest published item. Where there is none, the reader parks. -/
def read (q : Queue α) : Option α × Queue α :=
  if h : q.hasPrefetched = true then q.advance h
  else if h' : q.prefetch.hasPrefetched = true then q.prefetch.advance h'
  else (none, q.prefetch)

/-- The oldest published item, left in the queue. Where there is none, the reader parks. -/
def probe (q : Queue α) : Option α × Queue α :=
  match q.checkRead with
  | (true, q) => (q.items.head?, q)
  | (false, q) => (none, q)

/-! ## Several items at once -/

/-- Takes back items of an open message, newest first, up to and including the first that is not
`ok`, and at most `n` of them. -/
def unwriteUpTo (ok : α → Bool) : Nat → Queue α → List α × Queue α
  | 0, q => ([], q)
  | n + 1, q =>
    match q.unwrite with
    | (none, q) => ([], q)
    | (some x, q) =>
      if ok x then
        let (xs, q) := unwriteUpTo ok n q
        (x :: xs, q)
      else ([x], q)

/-- Takes back items of an open message, newest first, up to and including the first that is not
`ok`. -/
def unwriteWhile (q : Queue α) (ok : α → Bool) : List α × Queue α :=
  unwriteUpTo ok (q.back - q.complete) q

/-- Takes back every item of an open message, newest first. -/
def unwriteAll (q : Queue α) : List α × Queue α :=
  q.unwriteWhile fun _ => true

/-- Reads until nothing is left, at most `n` times. -/
def readUpTo : Nat → Queue α → List α × Queue α
  | 0, q => ([], q)
  | n + 1, q =>
    match q.read with
    | (none, q) => ([], q)
    | (some x, q) =>
      let (xs, q) := readUpTo n q
      (x :: xs, q)

/-- Reads until nothing is left, and so parks the reader. -/
def readAll (q : Queue α) : List α × Queue α :=
  readUpTo (q.back - q.front + 1) q

/-- Stages items in order, each one incomplete as `incomplete` says. -/
def writeAll (q : Queue α) (incomplete : α → Bool) (xs : List α) : Queue α :=
  xs.foldl (fun q x => q.write x (incomplete x)) q

/-! ## What the ends show of themselves -/

/-- The writing end as text. -/
def describeWriter (unflushed : Bool) : String :=
  "Writer \x7b unflushed: " ++ toString unflushed ++ ", .. \x7d"

/-- The reading end as text. -/
def describeReader (idle : Bool) : String :=
  "Reader \x7b idle: " ++ toString idle ++ ", .. \x7d"

end Queue

end MessagePipe
