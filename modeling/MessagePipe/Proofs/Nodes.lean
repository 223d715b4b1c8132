import Mathlib.Data.Finmap
import Mathlib.Data.Fintype.EquivFin
import MessagePipe.Queue.Request

/-!
# A queue as a chain of nodes

The program keeps the items of a queue in nodes, each pointing to the next one and to the one
before, in a chain that ends in an empty node which the next write fills (§9 of the specification:
an owned linked list with a single publish point). `Queue.Linked` is that chain, in a heap: a finite
map from addresses to nodes. The cursors are pointers, with the names they have in `Queue/Basic`,
and nodes are made and given back as items come and go.

The operations (`write`, `unwrite`, `flush`, `check_read`, `read`, `probe`) are those of the program
pointer by pointer, and a step fails (`Misuse`) where it would follow a pointer to nothing
(`dangling`), take a value that is not there (`vacant`), or write over one that is (`occupied`).
Where new nodes are put is a parameter (`Allocator`): any function of the addresses that are taken
which gives one that is free, so addresses are used again.

`Holds` says that a heap is a chain of some items. Since addresses are used again, it speaks of
where the node of each position is (`spot`).

* `Holds.push`, `Holds.unpush`, `Holds.pop`: what happens to a chain at its ends, by a write, by
  taking back, and by a read.
* `Holds.find_front`, `find_slot`, `find_last`: the nodes that a cursor may point to are there, with
  what they should hold.

That no operation ever fails, and that it does what it does to a queue of positions, is in
`Proofs/Linked`; how the nodes are given back with the last end, in `Proofs/Reclaim`.

Out of scope: atomicity. The shared point is swapped in one step.
-/

namespace MessagePipe

universe u

namespace Queue

open Function (update)

/-! ## Memory -/

/-- The address of a node. -/
abbrev Address := Nat

/-- A pointer: the address of a node, or null. -/
abbrev Pointer := Option Address

/-- A node. Its value is there once it was written and until it is taken. -/
structure Node (α : Type u) where
  value : Option α := none
  next : Pointer := none
  prev : Pointer

/-- The nodes that are there, by address. -/
abbrev Heap (α : Type u) := Finmap fun _ : Address => Node α

/-- What must never be done to memory. -/
inductive Misuse where
  /-- A pointer is followed to a node that is not there. -/
  | dangling
  /-- A value is taken that is not there. -/
  | vacant
  /-- A value is written over and lost. -/
  | occupied
deriving DecidableEq, Repr

/-- Where new nodes are put, by the number of nodes made before and the addresses that are taken. -/
structure Allocator where
  place : Nat → Finset Address → Address
  place_notMem : ∀ n taken, place n taken ∉ taken

/-- The allocator that puts each node at the lowest address that is free. -/
instance : Inhabited Allocator where
  default :=
    { place := fun _ taken => Nat.find (Infinite.exists_notMem_finset taken)
      place_notMem := fun _ taken => Nat.find_spec (Infinite.exists_notMem_finset taken) }

variable {α : Type u}

/-- The node a pointer points to, with its address. -/
def Heap.find (h : Heap α) (p : Pointer) : Except Misuse (Address × Node α) :=
  match p with
  | none => .error .dangling
  | some a =>
    match h.lookup a with
    | none => .error .dangling
    | some node => .ok (a, node)

/-- The value of a node. -/
def Node.take (node : Node α) : Except Misuse α :=
  match node.value with
  | none => .error .vacant
  | some x => .ok x

theorem Heap.find_some {h : Heap α} {a : Address} {node : Node α} (hl : h.lookup a = some node) :
    h.find (some a) = .ok (a, node) := by
  unfold find
  simp only [hl]

/-! ## The operations on nodes -/

/-- A queue as a chain of nodes. -/
structure Linked (α : Type u) where
  heap : Heap α
  /-- The number of nodes made. -/
  made : Nat
  /-- The shared point: the first unpublished node, null while the reader is parked. -/
  published : Pointer
  /-- The node of the next item to read. -/
  front : Pointer
  /-- The first node that no flush has reached. -/
  flushed : Pointer
  /-- The first node of an open message. -/
  complete : Pointer
  /-- The empty node the next write fills. -/
  back : Pointer
  /-- The shared point as the reader last saw it. -/
  prefetched : Pointer

namespace Linked

/-- A queue nothing was written to. -/
def fresh (A : Allocator) : Linked α :=
  let stub := some (A.place 0 ∅)
  { heap := Finmap.singleton (A.place 0 ∅) { prev := none }
    made := 1
    published := stub
    front := stub
    flushed := stub
    complete := stub
    back := stub
    prefetched := stub }

/-- Fills the empty node, and puts another one behind it. -/
def write (A : Allocator) (n : Linked α) (x : α) (incomplete : Bool) :
    Except Misuse (Linked α) := do
  let next := A.place n.made n.heap.keys
  let heap : Heap α := n.heap.insert next { prev := n.back }
  let (slot, node) ← heap.find n.back
  if node.value.isSome then
    throw .occupied
  return { n with
    heap := heap.insert slot { node with value := some x, next := some next }
    made := n.made + 1
    back := some next
    complete := if incomplete then n.complete else some next }

/-- Gives the empty node back, and empties the one before it. -/
def unwrite (n : Linked α) : Except Misuse (Option α × Linked α) :=
  if n.complete = n.back then .ok (none, n)
  else do
    let (stale, last) ← n.heap.find n.back
    let heap : Heap α := n.heap.erase stale
    let (slot, node) ← heap.find last.prev
    let x ← node.take
    return (some x, { n with
      heap := heap.insert slot { node with value := none, next := none }
      back := last.prev })

/-- Moves the shared point on, to where the open message begins. -/
def flush (n : Linked α) : Bool × Linked α :=
  if n.flushed = n.complete then (false, n)
  else
    (!decide (n.published = n.flushed),
      { n with flushed := n.complete, published := n.complete })

/-- Was anything written that no flush has published? -/
def hasUnflushed (n : Linked α) : Bool :=
  decide (n.flushed ≠ n.back)

/-- Does what the reader saw of the shared point reach beyond `front`? -/
def hasPrefetched (n : Linked α) : Bool :=
  decide (n.front ≠ n.prefetched) && n.prefetched.isSome

/-- Looks at the shared point again, parking the reader if nothing new is published. -/
def prefetch (n : Linked α) : Linked α :=
  if n.published = n.front then { n with published := none, prefetched := n.front }
  else { n with prefetched := n.published }

/-- Is a published item there to be read? -/
def checkRead (n : Linked α) : Bool × Linked α :=
  if n.hasPrefetched then (true, n) else (n.prefetch.hasPrefetched, n.prefetch)

/-- Gives the oldest node back and goes on to the next one, for a reader that has seen it
published. -/
def advance (n : Linked α) : Except Misuse (Option α × Linked α) := do
  let (front, node) ← n.heap.find n.front
  let x ← node.take
  return (some x, { n with heap := n.heap.erase front, front := node.next })

/-- Removes the oldest published item. -/
def read (n : Linked α) : Except Misuse (Option α × Linked α) :=
  match n.checkRead with
  | (true, n) => n.advance
  | (false, n) => .ok (none, n)

/-- The oldest published item, left in its node. -/
def probe (n : Linked α) : Except Misuse (Option α × Linked α) :=
  match n.checkRead with
  | (true, n) => do
    let (_, node) ← n.heap.find n.front
    let x ← node.take
    return (some x, n)
  | (false, n) => .ok (none, n)

/-- Does an operation. -/
def serve (A : Allocator) (n : Linked α) : Request α → Except Misuse (Response α × Linked α)
  | .write x incomplete => do return (.done, ← n.write A x incomplete)
  | .unwrite => do let (x, n) ← n.unwrite; return (.item x, n)
  | .flush => .ok (.flag n.flush.1, n.flush.2)
  | .hasUnflushed => .ok (.flag n.hasUnflushed, n)
  | .checkRead => .ok (.flag n.checkRead.1, n.checkRead.2)
  | .probe => do let (x, n) ← n.probe; return (.item x, n)
  | .read => do let (x, n) ← n.read; return (.item x, n)

end Linked

/-! ## Chains -/

/-- What the node of a position points back to, in a chain that begins at position `lo`. -/
def link (spot : Nat → Address) (lo : Nat) (before : Pointer) (p : Nat) : Pointer :=
  if p = lo then before else some (spot (p - 1))

/-- The node of a position in a chain that holds the items `xs` from position `lo` on. -/
def cell (spot : Nat → Address) (lo : Nat) (xs : List α) (before : Pointer) (p : Nat) : Node α where
  value := xs[p - lo]?
  next := if p < lo + xs.length then some (spot (p + 1)) else none
  prev := link spot lo before p

theorem link_congr {spot spot' : Nat → Address} {lo p : Nat} (before : Pointer)
    (h : ∀ p' ≤ p, spot' p' = spot p') : link spot' lo before p = link spot lo before p := by
  unfold link
  rw [h (p - 1) (Nat.sub_le ..)]

theorem cell_congr {spot spot' : Nat → Address} {lo p : Nat} (xs : List α) (before : Pointer)
    (h : ∀ p' ≤ p + 1, spot' p' = spot p') :
    cell spot' lo xs before p = cell spot lo xs before p := by
  unfold cell
  rw [h (p + 1) (Nat.le_refl _), link_congr before fun p' hp => h p' (Nat.le_succ_of_le hp)]

/-- The nodes before the empty one are the same with an item behind them. -/
theorem cell_append (spot : Nat → Address) {lo p : Nat} {xs : List α} (x : α) (before : Pointer)
    (hlo : lo ≤ p) (hp : p < lo + xs.length) :
    cell spot lo (xs ++ [x]) before p = cell spot lo xs before p := by
  have hlen : p < lo + (xs ++ [x]).length := by rw [List.length_append]; omega
  unfold cell
  rw [List.getElem?_append_left (by omega), if_pos hp, if_pos hlen]

/-- The node of the newest item. -/
theorem cell_last (spot : Nat → Address) (lo : Nat) (xs : List α) (x : α) (before : Pointer) :
    cell spot lo (xs ++ [x]) before (lo + xs.length) =
      ⟨some x, some (spot (lo + xs.length + 1)), link spot lo before (lo + xs.length)⟩ := by
  simp [cell]

/-- The empty node behind the items. -/
theorem cell_slot (spot : Nat → Address) (lo : Nat) (xs : List α) (before : Pointer) :
    cell spot lo xs before (lo + xs.length) =
      { prev := link spot lo before (lo + xs.length) } := by
  simp [cell]

/-- The node of the oldest item. -/
theorem cell_front (spot : Nat → Address) (lo : Nat) (x : α) (xs : List α) (before : Pointer) :
    cell spot lo (x :: xs) before lo = ⟨some x, some (spot (lo + 1)), before⟩ := by
  simp [cell, link]

/-- The nodes behind the oldest one are the same without it. -/
theorem cell_cons (spot : Nat → Address) {lo p : Nat} (x : α) (xs : List α) (before : Pointer)
    (hlo : lo + 1 ≤ p) :
    cell spot lo (x :: xs) before p = cell spot (lo + 1) xs (some (spot lo)) p := by
  obtain ⟨i, rfl⟩ := Nat.exists_eq_add_of_le hlo
  have hi : lo + 1 + i - lo = i + 1 := by omega
  have hlink :
      link spot lo before (lo + 1 + i) = link spot (lo + 1) (some (spot lo)) (lo + 1 + i) := by
    unfold link
    rw [if_neg (by omega)]
    split
    · next he => rw [he, Nat.add_sub_cancel]
    · rfl
  unfold cell
  rw [hi, List.getElem?_cons_succ, Nat.add_sub_cancel_left, hlink, List.length_cons,
    Nat.add_right_comm lo 1 xs.length, Nat.add_assoc lo xs.length 1]

/-- The heap is a chain that holds the items `xs`, the oldest at position `lo`, with an empty node
behind them. The node of position `p` is at `spot p`, and there are no others. -/
structure Holds (h : Heap α) (spot : Nat → Address) (lo : Nat) (xs : List α) (before : Pointer) :
    Prop where
  lookup : ∀ p, lo ≤ p → p ≤ lo + xs.length →
    h.lookup (spot p) = some (cell spot lo xs before p)
  taken : ∀ a ∈ h, ∃ p, lo ≤ p ∧ p ≤ lo + xs.length ∧ spot p = a
  apart : Set.InjOn spot (Set.Icc lo (lo + xs.length))

namespace Holds

variable {h : Heap α} {spot : Nat → Address} {lo : Nat} {xs : List α} {x : α} {before : Pointer}

theorem fresh (a : Address) :
    Holds (Finmap.singleton a { prev := none } : Heap α) (fun _ => a) 0 [] none where
  lookup p _ hp := by
    obtain rfl : p = 0 := Nat.le_zero.1 hp
    exact Finmap.lookup_singleton_eq
  taken a' ha := ⟨0, Nat.le_refl 0, Nat.le_refl 0, ((Finmap.mem_singleton ..).1 ha).symm⟩
  apart p hp p' hp' _ := (Nat.le_zero.1 hp.2).trans (Nat.le_zero.1 hp'.2).symm

/-- The empty node at the end. -/
theorem find_slot (hc : Holds h spot lo xs before) :
    h.find (some (spot (lo + xs.length))) =
      .ok (spot (lo + xs.length), { prev := link spot lo before (lo + xs.length) }) := by
  rw [Heap.find_some (hc.lookup _ (Nat.le_add_right ..) (Nat.le_refl _)), cell_slot]

/-- The node of the oldest item. -/
theorem find_front (hc : Holds h spot lo (x :: xs) before) :
    h.find (some (spot lo)) = .ok (spot lo, ⟨some x, some (spot (lo + 1)), before⟩) := by
  rw [Heap.find_some (hc.lookup lo (Nat.le_refl _) (Nat.le_add_right ..)), cell_front]

theorem mem (hc : Holds h spot lo xs before) {p : Nat} (hlo : lo ≤ p) (hhi : p ≤ lo + xs.length) :
    spot p ∈ h :=
  Finmap.mem_of_lookup_eq_some (hc.lookup p hlo hhi)

/-- The oldest item goes with its node. -/
theorem pop (hc : Holds h spot lo (x :: xs) before) :
    Holds (h.erase (spot lo)) spot (lo + 1) xs (some (spot lo)) := by
  have hlen : lo + (x :: xs).length = lo + 1 + xs.length := by rw [List.length_cons]; omega
  constructor
  case lookup =>
    intro p hlo hhi
    rw [← hlen] at hhi
    have hne : spot p ≠ spot lo :=
      hc.apart.ne ⟨by omega, hhi⟩ ⟨Nat.le_refl _, Nat.le_add_right ..⟩ (by omega)
    rw [Finmap.lookup_erase_ne hne, hc.lookup p (by omega) hhi, cell_cons _ _ _ _ hlo]
  case taken =>
    intro a ha
    rw [Finmap.mem_erase] at ha
    obtain ⟨p, hlo, hhi, rfl⟩ := hc.taken a ha.2
    have hne : p ≠ lo := fun he => ha.1 (he ▸ rfl)
    exact ⟨p, by omega, hlen ▸ hhi, rfl⟩
  case apart =>
    exact hc.apart.mono (Set.Icc_subset_Icc (Nat.le_succ lo) hlen.ge)

/-- A new node is put behind the empty one, which takes an item. -/
theorem push (hc : Holds h spot lo xs before) {next : Address} (hn : next ∉ h) (x : α) :
    Holds ((h.insert next { prev := some (spot (lo + xs.length)) }).insert (spot (lo + xs.length))
        ⟨some x, some next, link spot lo before (lo + xs.length)⟩)
      (update spot (lo + xs.length + 1) next) lo (xs ++ [x]) before := by
  have hne : ∀ p, lo ≤ p → p ≤ lo + xs.length → spot p ≠ next := fun p hlo hhi he =>
    hn (he ▸ hc.mem hlo hhi)
  have hspot : ∀ p ≤ lo + xs.length, update spot (lo + xs.length + 1) next p = spot p :=
    fun p hp => Function.update_of_ne (by omega) ..
  have hnew : update spot (lo + xs.length + 1) next (lo + xs.length + 1) = next :=
    Function.update_self ..
  have hlast : lo ≤ lo + xs.length := Nat.le_add_right ..
  have hlen : lo + (xs ++ [x]).length = lo + xs.length + 1 := by simp [Nat.add_assoc]
  constructor
  case lookup =>
    intro p hlo hhi
    rw [hlen] at hhi
    rcases Nat.eq_or_lt_of_le hhi with rfl | hlt
    · have hslot := cell_slot (update spot (lo + xs.length + 1) next) lo (xs ++ [x]) before
      rw [hlen, link, if_neg (by omega), Nat.add_sub_cancel, hspot _ (Nat.le_refl _)] at hslot
      rw [hnew, Finmap.lookup_insert_of_ne _ (hne _ hlast (Nat.le_refl _)).symm,
        Finmap.lookup_insert, hslot]
    · rw [hspot p (Nat.le_of_lt_succ hlt)]
      rcases Nat.eq_or_lt_of_le (Nat.le_of_lt_succ hlt) with rfl | hlt
      · rw [Finmap.lookup_insert, cell_last, hnew, link_congr before hspot]
      · have hother : spot p ≠ spot (lo + xs.length) :=
          hc.apart.ne ⟨hlo, Nat.le_of_lt hlt⟩ ⟨hlast, Nat.le_refl _⟩ (Nat.ne_of_lt hlt)
        rw [Finmap.lookup_insert_of_ne _ hother,
          Finmap.lookup_insert_of_ne _ (hne p hlo (Nat.le_of_lt hlt)),
          hc.lookup p hlo (Nat.le_of_lt hlt), cell_append _ _ _ hlo hlt,
          cell_congr _ _ fun p' hp' => hspot p' (by omega)]
  case taken =>
    intro a ha
    rw [Finmap.mem_insert, Finmap.mem_insert] at ha
    rw [hlen]
    rcases ha with rfl | rfl | ha
    · exact ⟨_, hlast, Nat.le_succ _, hspot _ (Nat.le_refl _)⟩
    · exact ⟨_, Nat.le_succ_of_le hlast, Nat.le_refl _, hnew⟩
    · obtain ⟨p, hlo, hhi, rfl⟩ := hc.taken a ha
      exact ⟨p, hlo, Nat.le_succ_of_le hhi, hspot p hhi⟩
  case apart =>
    rintro p ⟨hlo, hhi⟩ p' ⟨hlo', hhi'⟩ he
    rw [hlen] at hhi hhi'
    rcases Nat.eq_or_lt_of_le hhi with rfl | hlt <;> rcases Nat.eq_or_lt_of_le hhi' with rfl | hlt'
    · rfl
    · rw [hnew, hspot p' (Nat.le_of_lt_succ hlt')] at he
      exact absurd he.symm (hne p' hlo' (Nat.le_of_lt_succ hlt'))
    · rw [hnew, hspot p (Nat.le_of_lt_succ hlt)] at he
      exact absurd he (hne p hlo (Nat.le_of_lt_succ hlt))
    · rw [hspot p (Nat.le_of_lt_succ hlt), hspot p' (Nat.le_of_lt_succ hlt')] at he
      exact hc.apart ⟨hlo, Nat.le_of_lt_succ hlt⟩ ⟨hlo', Nat.le_of_lt_succ hlt'⟩ he

/-- The empty node, and the one before it once that is given back. -/
theorem find_last (hc : Holds h spot lo (xs ++ [x]) before) :
    h.find (some (spot (lo + xs.length + 1))) =
        .ok (spot (lo + xs.length + 1), { prev := some (spot (lo + xs.length)) }) ∧
      Heap.find (h.erase (spot (lo + xs.length + 1))) (some (spot (lo + xs.length))) =
        .ok (spot (lo + xs.length),
          ⟨some x, some (spot (lo + xs.length + 1)), link spot lo before (lo + xs.length)⟩) := by
  have hlen : lo + (xs ++ [x]).length = lo + xs.length + 1 := by simp [Nat.add_assoc]
  constructor
  · have hslot := hc.find_slot
    rw [hlen, link, if_neg (by omega), Nat.add_sub_cancel] at hslot
    exact hslot
  · have hne : spot (lo + xs.length) ≠ spot (lo + xs.length + 1) :=
      hc.apart.ne ⟨by omega, by omega⟩ ⟨by omega, by omega⟩ (Nat.ne_of_lt (Nat.lt_succ_self _))
    have hlast := hc.lookup (lo + xs.length) (Nat.le_add_right ..) (by omega)
    rw [cell_last] at hlast
    exact Heap.find_some ((Finmap.lookup_erase_ne hne).trans hlast)

/-- The empty node is given back, and the one before it becomes the empty one. -/
theorem unpush (hc : Holds h spot lo (xs ++ [x]) before) :
    Holds ((h.erase (spot (lo + xs.length + 1))).insert (spot (lo + xs.length))
      { prev := link spot lo before (lo + xs.length) }) spot lo xs before := by
  have hlen : lo + (xs ++ [x]).length = lo + xs.length + 1 := by simp [Nat.add_assoc]
  have hlast : lo ≤ lo + xs.length := Nat.le_add_right ..
  have hapart : Set.InjOn spot (Set.Icc lo (lo + xs.length + 1)) := hlen ▸ hc.apart
  constructor
  case lookup =>
    intro p hlo hhi
    rcases Nat.eq_or_lt_of_le hhi with rfl | hlt
    · rw [Finmap.lookup_insert, cell_slot]
    · have hp : p ∈ Set.Icc lo (lo + xs.length + 1) := ⟨hlo, Nat.le_succ_of_le hhi⟩
      have hne : spot p ≠ spot (lo + xs.length) :=
        hapart.ne hp ⟨hlast, Nat.le_succ _⟩ (Nat.ne_of_lt hlt)
      have hne' : spot p ≠ spot (lo + xs.length + 1) :=
        hapart.ne hp ⟨Nat.le_succ_of_le hlast, Nat.le_refl _⟩ (Nat.ne_of_lt (Nat.lt_succ_of_lt hlt))
      rw [Finmap.lookup_insert_of_ne _ hne, Finmap.lookup_erase_ne hne',
        hc.lookup p hlo (hlen ▸ Nat.le_succ_of_le hhi), cell_append _ _ _ hlo hlt]
  case taken =>
    intro a ha
    rw [Finmap.mem_insert, Finmap.mem_erase] at ha
    rcases ha with rfl | ⟨hne, ha⟩
    · exact ⟨_, hlast, Nat.le_refl _, rfl⟩
    · obtain ⟨p, hlo, hhi, rfl⟩ := hc.taken a ha
      have : p ≠ lo + xs.length + 1 := fun he => hne (he ▸ rfl)
      exact ⟨p, hlo, by omega, rfl⟩
  case apart =>
    exact hapart.mono (Set.Icc_subset_Icc_right (Nat.le_succ _))

end Holds

end Queue

end MessagePipe
