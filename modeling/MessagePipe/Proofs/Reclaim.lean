import MessagePipe.Proofs.Custody
import MessagePipe.Proofs.Linked

/-!
# What is left in the nodes of a queue

The storage of a queue is released when both ends are gone (§3 of the specification). Its nodes are
given back one by one as its items are read, and all that are left with its last end. `Heap.reclaim`
follows them from the oldest one: a node that has a next one has a value to release, and the empty
node at the end has neither. It knows nothing else about the chain, so it comes to an end only
because every step gives a node back.

* `reclaim_of_holds`: a chain is given back whole, and its items are released in order.
* `LinkedEnds`: the nodes of a queue with the ends that are held; `LinkedEnds.use` does an
  operation, or drops an end.
* `LinkedEnds.Agrees`: the nodes are those of a queue as long as one of the same ends is held, and
  all gone after that. `Agrees.drop` and `Agrees.use` are its step lemmas, `Agrees.useAll` the
  induction: whatever is done with the two ends, the nodes do what the queue does.
* `LinkedEnds.items_accounted_for`: no item is lost, none comes out twice, and no node is left. At
  any moment the items written are those that were read, taken back, released or are stored, and
  memory is never misused; this is the balance of `Proofs/Custody`, taken over to nodes.

It holds for every allocator and for both orders in which the ends are dropped.

Out of scope: which thread gives the last node back. The two drops are ordered one way or the other.
-/

namespace MessagePipe

open scoped List

universe u

namespace Queue

variable {α : Type u}

/-! ## Giving a chain back -/

theorem card_keys_erase_lt {h : Heap α} {a : Address} {node : Node α}
    (hl : h.lookup a = some node) : (Finmap.erase a h).keys.card < h.keys.card := by
  rw [Finmap.keys_erase]
  exact Finset.card_erase_lt_of_mem (Finmap.mem_keys.2 (Finmap.mem_of_lookup_eq_some hl))

/-- Gives back the nodes from one on, and releases their values. Only the node at the end has no
next one, and no value. -/
def Heap.reclaim (h : Heap α) (p : Pointer) : Except Misuse (List α × Heap α) :=
  match p with
  | none => .ok ([], h)
  | some a =>
    match _hl : h.lookup a with
    | none => .error .dangling
    | some node =>
      if node.next.isNone then Heap.reclaim (Finmap.erase a h) node.next
      else do
        let x ← node.take
        let (xs, rest) ← Heap.reclaim (Finmap.erase a h) node.next
        return (x :: xs, rest)
termination_by h.keys.card
decreasing_by
  · exact card_keys_erase_lt _hl
  · exact card_keys_erase_lt _hl

section Reclaim

variable {h : Heap α} {spot : Nat → Address} {lo : Nat} {xs : List α} {before : Pointer}

theorem Heap.reclaim_null : h.reclaim none = .ok ([], h) := by
  rw [reclaim]

theorem Heap.reclaim_last {a : Address} {node : Node α} (hl : h.lookup a = some node)
    (hn : node.next = none) : h.reclaim (some a) = .ok ([], Finmap.erase a h) := by
  rw [reclaim]
  split
  · next hl' => cases hl'.symm.trans hl
  · next node' hl' =>
    cases hl'.symm.trans hl
    rw [if_pos (by rw [hn]; rfl), hn, reclaim_null]

theorem Heap.reclaim_next {a : Address} {x : α} {next : Address} {prev : Pointer}
    (hl : h.lookup a = some ⟨some x, some next, prev⟩) :
    h.reclaim (some a) = do
      let (xs, rest) ← Heap.reclaim (Finmap.erase a h) (some next)
      return (x :: xs, rest) := by
  rw [reclaim]
  split
  · next hl' => cases hl'.symm.trans hl
  · next node' hl' =>
    cases hl'.symm.trans hl
    rfl

/-- The empty node is the only one of an empty chain. -/
theorem Holds.erase_slot (hc : Holds h spot lo ([] : List α) before) :
    Finmap.erase (spot lo) h = ∅ := by
  refine Finmap.ext_lookup fun a => ?_
  rw [Finmap.lookup_empty, Finmap.lookup_eq_none, Finmap.mem_erase]
  rintro ⟨hne, ha⟩
  obtain ⟨p, hlo, hhi, rfl⟩ := hc.taken a ha
  exact hne (congrArg spot (Nat.le_antisymm hhi hlo))

/-- **A chain is given back whole, and its items are released in order.** -/
theorem reclaim_of_holds (hc : Holds h spot lo xs before) :
    h.reclaim (some (spot lo)) = .ok (xs, ∅) := by
  induction xs generalizing h lo before with
  | nil =>
    have hslot := hc.lookup lo (Nat.le_refl _) (Nat.le_refl _)
    rw [Heap.reclaim_last hslot (by simp [cell]), hc.erase_slot]
  | cons x xs ih =>
    have hfront := hc.lookup lo (Nat.le_refl _) (Nat.le_add_right ..)
    rw [cell_front] at hfront
    rw [Heap.reclaim_next hfront, ih hc.pop]
    rfl

end Reclaim

/-! ## The two ends -/

/-- The nodes of a queue with the ends that are held. -/
structure LinkedEnds (α : Type u) where
  nodes : Linked α
  held : Held := {}

/-- What is done with an end. -/
inductive Use (α : Type u) where
  /-- An operation. -/
  | request (request : Request α)
  /-- The end is dropped. -/
  | drop (side : Side)

/-- What it is for a queue. -/
def Use.step : Use α → Ends.Step α
  | request r => .request r
  | drop side => .drop side

namespace LinkedEnds

/-- A fresh queue with both ends. -/
def fresh (A : Allocator) : LinkedEnds α where
  nodes := .fresh A

/-- Drops an end that is held; the second one gives all nodes back. -/
def drop (e : LinkedEnds α) (side : Side) : Except Misuse (List α × LinkedEnds α) :=
  let held := e.held.without side
  if e.held.has side && held.isNone then do
    let (xs, heap) ← e.nodes.heap.reclaim e.nodes.front
    return (xs, { nodes := { e.nodes with heap }, held })
  else .ok ([], { e with held })

/-- Does something with an end; the answer comes with the items the queue itself released. -/
def use (A : Allocator) (e : LinkedEnds α) :
    Use α → Except Misuse ((Ends.Answer α × List α) × LinkedEnds α)
  | .request r =>
    if e.held.has r.side then do
      let (response, nodes) ← e.nodes.serve A r
      return ((.response response, []), { e with nodes })
    else .ok ((.missing r.side.missing, []), e)
  | .drop side => do
    let (xs, e') ← e.drop side
    return ((.response (.flag (e.held.has side)), xs), e')

/-- Does one thing after the other. -/
def useAll (A : Allocator) (e : LinkedEnds α) :
    List (Use α) → Except Misuse (List (Ends.Answer α × List α) × LinkedEnds α)
  | [] => .ok ([], e)
  | u :: us => do
    let (answer, e) ← e.use A u
    let (answers, e) ← e.useAll A us
    return (answer :: answers, e)

/-- The nodes are those of a queue as long as one of the same ends is held, and all gone after
that. -/
structure Agrees (e : LinkedEnds α) (e' : Ends α) : Prop where
  held : e.held = e'.held
  shows : e'.held.isNone = false → ∃ spot before, e.nodes.Shows e'.queue spot before
  gone : e'.held.isNone = true → e.nodes.heap = ∅

theorem agrees_fresh (A : Allocator) : Agrees (fresh A : LinkedEnds α) .fresh :=
  ⟨rfl, fun _ => ⟨_, _, Linked.shows_fresh A⟩, nofun⟩

namespace Agrees

variable {e : LinkedEnds α} {e' : Ends α}

/-- **Dropping an end never fails,** and releases what the queue has stored if it is the last. -/
theorem drop (h : Agrees e e') (side : Side) :
    ∃ e₁, e.drop side = .ok ((e'.drop side).1, e₁) ∧ Agrees e₁ (e'.drop side).2 := by
  unfold LinkedEnds.drop Ends.drop
  dsimp only
  rw [h.held]
  cases hlast : e'.held.has side && (e'.held.without side).isNone with
  | true =>
    obtain ⟨hside, hgone⟩ := Bool.and_eq_true_iff.1 hlast
    obtain ⟨spot, before, hs⟩ := h.shows (by rw [e'.held.isNone_eq side, hside]; rfl)
    refine ⟨⟨{ e.nodes with heap := ∅ }, e'.held.without side⟩, ?_, rfl, fun hheld => ?_,
      fun _ => rfl⟩
    · have hreclaim : e.nodes.heap.reclaim e.nodes.front = .ok (e'.queue.items.toList, ∅) :=
        hs.front ▸ reclaim_of_holds hs.chain
      rw [if_pos rfl, hreclaim]
      rfl
    · cases hgone.symm.trans hheld
  | false =>
    have hnone : (e'.held.without side).isNone = e'.held.isNone := by
      rw [e'.held.isNone_without] at hlast ⊢
      rw [e'.held.isNone_eq side]
      cases hside : e'.held.has side with
      | false => rfl
      | true => rwa [hside] at hlast
    exact ⟨⟨e.nodes, e'.held.without side⟩, rfl, rfl, fun hheld => h.shows (hnone ▸ hheld),
      fun hgone => h.gone (hnone ▸ hgone)⟩

theorem use (h : Agrees e e') (A : Allocator) (u : Use α) :
    ∃ e₁, e.use A u = .ok ((e'.step u.step).1, e₁) ∧ Agrees e₁ (e'.step u.step).2 := by
  cases u with
  | request r =>
    unfold LinkedEnds.use Use.step Ends.step Ends.Step.needs
    dsimp only
    rw [h.held]
    cases hheld : e'.held.has r.side with
    | false => exact ⟨e, rfl, h⟩
    | true =>
      have hsome : e'.held.isNone = false := by rw [e'.held.isNone_eq r.side, hheld]; rfl
      obtain ⟨spot, before, hs⟩ := h.shows hsome
      obtain ⟨nodes, spot', before', hn, hs'⟩ := hs.serve A r
      refine ⟨⟨nodes, e'.held⟩, ?_, rfl, fun _ => ⟨_, _, hs'⟩, fun hgone => ?_⟩
      · rw [if_pos rfl, hn]
        rfl
      · cases hsome.symm.trans hgone
  | drop side =>
    obtain ⟨e₁, he, hagree⟩ := h.drop side
    refine ⟨e₁, ?_, hagree⟩
    unfold LinkedEnds.use
    dsimp only
    rw [he, h.held]
    rfl

/-- **Whatever is done with the two ends, the nodes do what the queue does.** -/
theorem useAll (h : Agrees e e') (A : Allocator) (us : List (Use α)) :
    ∃ e₁, e.useAll A us = .ok ((e'.run (us.map Use.step)).1, e₁) ∧
      Agrees e₁ (e'.run (us.map Use.step)).2 := by
  induction us generalizing e e' with
  | nil => exact ⟨e, rfl, h⟩
  | cons u us ih =>
    obtain ⟨e₁, hu, h₁⟩ := h.use A u
    obtain ⟨e₂, hus, h₂⟩ := ih h₁
    refine ⟨e₂, ?_, h₂⟩
    rw [LinkedEnds.useAll, hu]
    dsimp only [Except.bind, bind]
    rw [hus]
    rfl

end Agrees

/-- **Every item is accounted for, and every node is given back.** Whatever is done with the two
ends of a fresh queue, whichever of them is dropped first, and wherever its nodes are put, memory is
not misused. At any moment the items written are those that were read, taken back, released or are
stored, each once, and those that were not taken back are in the order they were written in. An end
that is dropped releases what is stored, published or not, if it is the last one, and nothing
otherwise; after that nothing is stored, and no node is left. -/
theorem items_accounted_for (A : Allocator) (us : List (Use α)) (side : Side) :
    let (answers, e) := (Ends.fresh : Ends α).run (us.map Use.step)
    let f := Ends.flow (us.map Use.step) answers
    ∃ n : LinkedEnds α, (fresh A).useAll A us = .ok (answers, n) ∧ n.held = e.held ∧
      (∃ n', n.drop side = .ok (if e.isLast side then e.stored else [], n')) ∧
      (f.read ++ f.takenBack ++ (f.released ++ e.stored)) ~ f.written ∧
      (f.read ++ (f.released ++ e.stored)).Sublist f.written ∧
      (e.held.isNone = false → f.released = []) ∧
      (e.held.isNone = true → e.stored = [] ∧ n.nodes.heap = ∅) := by
  obtain ⟨n, hn, hagree⟩ := (agrees_fresh A).useAll A us
  obtain ⟨n', hdrop, -⟩ := hagree.drop side
  obtain ⟨hitems, horder, hearly, hempty⟩ := Ends.accounts_of_run (α := α) (us.map Use.step)
  refine ⟨n, hn, hagree.held, ⟨n', hdrop.trans ?_⟩, hitems, horder, hearly, fun hgone =>
    ⟨hempty hgone, hagree.gone hgone⟩⟩
  rw [Ends.drop_eq]
  split <;> rfl

end LinkedEnds

end Queue

end MessagePipe
