/-!
# Chains: lists that grow at the back and shrink at either end

A `Chain` keeps its items in two lists, the oldest ones in order and the newest ones in reverse, so
that adding at the back and removing at either end touch the head of a list. What a chain means is
`Chain.toList`, oldest item first; every operation has one law about it:

* `toList_push`: an item is added behind all others.
* `toList_pop?`: the oldest item is removed, `none` exactly for the empty chain.
* `toList_unpush?`: the newest item is removed, `none` exactly for the empty chain.
* `head?_eq`: the oldest item can be looked at without removing it.
* `eq_empty`: there is one chain without items, so an empty list determines its chain.

A chain stands in three places: for the linked nodes of a queue (`Queue.items`), whose reader takes
from the front while its writer adds and takes back at the back; for the envelopes of a mailbox; and
for the log. Nothing after this module looks at the two lists.
-/

namespace MessagePipe

universe u

/-- Items in order of age, split into the older part and the reversed newer part. -/
structure Chain (α : Type u) where
  /-- The older items, oldest first. -/
  older : List α := []
  /-- The newer items, newest first. -/
  newer : List α := []
deriving Repr

namespace Chain

variable {α : Type u}

/-- The items, oldest first. -/
def toList (c : Chain α) : List α :=
  c.older ++ c.newer.reverse

/-- The chain without items. -/
def empty : Chain α := {}

/-- A chain of the given items, oldest first. -/
def ofList (xs : List α) : Chain α := { older := xs }

/-- Is there no item? -/
def isEmpty (c : Chain α) : Bool :=
  c.older.isEmpty && c.newer.isEmpty

/-- Adds an item at the back. -/
def push (c : Chain α) (x : α) : Chain α :=
  { c with newer := x :: c.newer }

/-- The oldest item. -/
def head? (c : Chain α) : Option α :=
  match c.older with
  | x :: _ => some x
  | [] => c.newer.getLast?

/-- Removes the oldest item. -/
def pop? (c : Chain α) : Option (α × Chain α) :=
  match c.older with
  | x :: older => some (x, { c with older })
  | [] =>
    match c.newer.reverse with
    | x :: older => some (x, { older })
    | [] => none

/-- Removes the newest item. -/
def unpush? (c : Chain α) : Option (α × Chain α) :=
  match c.newer with
  | x :: newer => some (x, { c with newer })
  | [] =>
    match c.older.reverse with
    | x :: newer => some (x, { newer })
    | [] => none

/-! ## The operations on the list of items -/

@[simp] theorem toList_empty : (empty : Chain α).toList = [] := rfl

@[simp] theorem toList_ofList (xs : List α) : (ofList xs).toList = xs := by
  simp [ofList, toList]

@[simp] theorem toList_push (c : Chain α) (x : α) : (c.push x).toList = c.toList ++ [x] := by
  simp [push, toList]

theorem head?_eq (c : Chain α) : c.head? = c.toList.head? := by
  obtain ⟨older, newer⟩ := c
  cases older <;> simp [head?, toList]

/-- Only one chain has no item. -/
theorem eq_empty {c : Chain α} (h : c.toList = []) : c = empty := by
  obtain ⟨older, newer⟩ := c
  obtain ⟨rfl, hn⟩ := List.append_eq_nil_iff.1 h
  obtain rfl := List.reverse_eq_nil_iff.1 hn
  rfl

/-- Removing the oldest item leaves the rest in order. -/
theorem toList_pop? (c : Chain α) :
    c.pop?.map (fun (x, rest) => x :: rest.toList)
      = if c.toList = [] then none else some c.toList := by
  obtain ⟨older, newer⟩ := c
  cases older with
  | cons x older => simp [pop?, toList]
  | nil =>
    cases h : newer.reverse with
    | cons x older => simp [pop?, toList, h]
    | nil => simp [pop?, toList, h]

/-- Removing the newest item leaves the rest in order. -/
theorem toList_unpush? (c : Chain α) :
    c.unpush?.map (fun (x, rest) => rest.toList ++ [x])
      = if c.toList = [] then none else some c.toList := by
  obtain ⟨older, newer⟩ := c
  cases newer with
  | cons x newer => simp [unpush?, toList]
  | nil =>
    cases h : older.reverse with
    | cons x newer =>
      have h' : older = newer.reverse ++ [x] := by simpa using congrArg List.reverse h
      simp [unpush?, toList, h']
    | nil =>
      have h' : older = [] := by simpa using congrArg List.reverse h
      simp [unpush?, toList, h']

theorem pop?_eq_some {c rest : Chain α} {x : α} (h : c.pop? = some (x, rest)) :
    c.toList = x :: rest.toList := by
  have := toList_pop? c
  rw [h] at this
  by_cases hc : c.toList = [] <;> simp_all

theorem pop?_eq_none {c : Chain α} (h : c.pop? = none) : c.toList = [] := by
  have := toList_pop? c
  rw [h] at this
  by_cases hc : c.toList = [] <;> simp_all

theorem unpush?_eq_some {c rest : Chain α} {x : α} (h : c.unpush? = some (x, rest)) :
    c.toList = rest.toList ++ [x] := by
  have := toList_unpush? c
  rw [h] at this
  by_cases hc : c.toList = [] <;> simp_all

theorem unpush?_eq_none {c : Chain α} (h : c.unpush? = none) : c.toList = [] := by
  have := toList_unpush? c
  rw [h] at this
  by_cases hc : c.toList = [] <;> simp_all

end Chain

end MessagePipe
