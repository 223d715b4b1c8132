import MessagePipe.Proofs.Nodes

/-!
# A chain of nodes is a queue

The queue of the program is an owned linked list of nodes with a single publish point (§9 of the
specification). `Linked.Shows` says that the nodes of `Queue.Linked` (`Proofs/Nodes`) are the chain
of a `Queue`, and that each cursor points to where the chain has its position. So cursors are
compared as positions are (`spot_inj`), and what an operation does at either end of the chain it
does to the items of the queue.

Each operation of `Queue/Basic` has its lemma here:

* `Shows.write`, `Shows.unwrite`, `Shows.flush`, `Shows.hasUnflushed`: the writing end;
* `Shows.prefetch`, `Shows.checkRead`, `Shows.advance`, `Shows.read`, `Shows.probe`: the reading
  end;
* `Shows.serve`: so an operation on nodes never fails, and does and answers what it does to the
  queue.

That it never fails is a statement about memory: no pointer is followed to a node that was given
back, no value is taken twice, and none is written over. It holds for every allocator, so also for
one that puts a new node where an old one was, which is when a stale pointer would go unnoticed; a
comparison of pointers is right because two positions that are in use are at different addresses.
Where the chain begins (`before`) can not be told from it, since the oldest node may still point
back to one that is gone.

Premise of `Shows.advance`: the reader has seen that something is published.

Out of scope: the end of a queue, when all nodes are given back (`Proofs/Reclaim`), and the order in
which memory becomes visible to another thread.
-/

namespace MessagePipe

universe u

namespace Queue

open Function (update)

variable {α : Type u}

theorem front_add_length (q : Queue α) : q.front + q.items.toList.length = q.back := by
  have := q.front_le; have := q.flushed_le; have := q.complete_le
  rw [q.length_eq]
  omega

theorem eq_flushed_of_published (q : Queue α) (p : Nat) (hp : q.published = some p) :
    p = q.flushed := by
  rcases q.published_eq with he | ⟨he, -⟩ <;> rw [he] at hp <;> cases hp
  rfl

/-- A reader that is told of an item has seen it published. -/
theorem hasPrefetched_checkRead (q : Queue α) (h : q.checkRead.1 = true) :
    q.checkRead.2.hasPrefetched = true := by
  unfold checkRead at h ⊢
  split
  · next hq => exact hq
  · next hq => rwa [if_neg hq] at h

theorem items_ne_nil {q : Queue α} (h : q.hasPrefetched = true) : q.items.toList ≠ [] := by
  intro he
  have := (front_lt_of_hasPrefetched h).1; have := q.flushed_le; have := q.complete_le
  have hback := front_add_length q
  rw [he, List.length_nil] at hback
  omega

/-- The nodes are those of a queue, and the cursors point to where it has them. -/
structure Linked.Shows (n : Linked α) (q : Queue α) (spot : Nat → Address) (before : Pointer) :
    Prop where
  chain : Holds n.heap spot q.front q.items.toList before
  front : n.front = some (spot q.front)
  flushed : n.flushed = some (spot q.flushed)
  complete : n.complete = some (spot q.complete)
  back : n.back = some (spot q.back)
  published : n.published = q.published.map spot
  prefetched : n.prefetched = q.prefetched.map spot

namespace Linked

theorem shows_fresh (A : Allocator) :
    Shows (fresh A : Linked α) .empty (fun _ => A.place 0 ∅) none :=
  ⟨.fresh _, rfl, rfl, rfl, rfl, rfl, rfl⟩

namespace Shows

variable {n : Linked α} {q : Queue α} {spot : Nat → Address} {before : Pointer}

/-- Two cursors point to one node only where they are at one position. -/
theorem spot_inj (h : n.Shows q spot before) {p p' : Nat} (hlo : q.front ≤ p) (hhi : p ≤ q.back)
    (hlo' : q.front ≤ p') (hhi' : p' ≤ q.back) : some (spot p) = some (spot p') ↔ p = p' := by
  rw [← front_add_length] at hhi hhi'
  exact ⟨fun he => h.chain.apart ⟨hlo, hhi⟩ ⟨hlo', hhi'⟩ (Option.some.inj he), fun he => he ▸ rfl⟩

/-! ### The writing end -/

/-- The empty node, when another one has been made. -/
theorem find_back (h : n.Shows q spot before) {next : Address} (hn : next ∉ n.heap) :
    Heap.find (n.heap.insert next { prev := n.back }) n.back =
      .ok (spot q.back, { prev := link spot q.front before q.back }) := by
  have hback := front_add_length q
  have hne : spot q.back ≠ next := fun he =>
    hn (he ▸ h.chain.mem (hback ▸ Nat.le_add_right ..) hback.ge)
  have hslot := h.chain.lookup _ (Nat.le_add_right ..) (Nat.le_refl _)
  rw [cell_slot, hback] at hslot
  rw [h.back]
  exact Heap.find_some ((Finmap.lookup_insert_of_ne _ hne).trans hslot)

theorem write (h : n.Shows q spot before) (A : Allocator) (x : α) (incomplete : Bool) :
    ∃ n' spot', n.write A x incomplete = .ok n' ∧ n'.Shows (q.write x incomplete) spot' before := by
  have hnew : A.place n.made n.heap.keys ∉ n.heap := fun hm =>
    A.place_notMem n.made n.heap.keys (Finmap.mem_keys.2 hm)
  generalize hnext : A.place n.made n.heap.keys = next at hnew
  have hwrite : n.write A x incomplete = .ok { n with
      heap := (n.heap.insert next { prev := n.back }).insert (spot q.back)
        ⟨some x, some next, link spot q.front before q.back⟩
      made := n.made + 1
      back := some next
      complete := if incomplete then n.complete else some next } := by
    unfold Linked.write
    rw [hnext]
    dsimp only
    rw [h.find_back hnew]
    rfl
  -- The cursors stay where they were, but for those that move on to the new node.
  have hlast : update spot (q.back + 1) next (q.back + 1) = next := Function.update_self ..
  have hspot : ∀ p ≤ q.back, update spot (q.back + 1) next p = spot p := fun p hp =>
    Function.update_of_ne (by omega) ..
  have := q.front_le; have := q.flushed_le; have := q.complete_le
  refine ⟨_, update spot (q.back + 1) next, hwrite, ?_⟩
  constructor
  case chain =>
    have hpush := h.chain.push hnew x
    rw [front_add_length, ← h.back] at hpush
    simpa only [Queue.write, Chain.toList_push] using hpush
  case front => exact h.front.trans (congrArg some (hspot _ (by omega)).symm)
  case flushed => exact h.flushed.trans (congrArg some (hspot _ (by omega)).symm)
  case complete =>
    cases incomplete with
    | true => exact h.complete.trans (congrArg some (hspot _ (by omega)).symm)
    | false => exact congrArg some hlast.symm
  case back => exact congrArg some hlast.symm
  case published =>
    refine h.published.trans (Option.map_congr fun p hp => (hspot p ?_).symm)
    have := q.eq_flushed_of_published p hp
    omega
  case prefetched =>
    refine h.prefetched.trans (Option.map_congr fun p hp => (hspot p ?_).symm)
    have := q.prefetched_le p hp
    omega

theorem unwrite (h : n.Shows q spot before) :
    ∃ n', n.unwrite = .ok (q.unwrite.1, n') ∧ n'.Shows q.unwrite.2 spot before := by
  have := q.front_le; have := q.flushed_le; have hle := q.complete_le
  have hback := front_add_length q
  have hopen : n.complete = n.back ↔ q.complete = q.back := by
    rw [h.complete, h.back]
    exact h.spot_inj (by omega) hle (by omega) (Nat.le_refl _)
  unfold Linked.unwrite Queue.unwrite
  by_cases hb : q.complete = q.back
  · rw [if_pos (hopen.2 hb), dif_pos hb]
    exact ⟨n, rfl, h⟩
  · rw [if_neg (mt hopen.1 hb), dif_neg hb]
    split
    · next hx =>
      rw [Chain.unpush?_eq_none hx] at hback
      simp only [List.length_nil] at hback
      omega
    · next x items hx =>
      have hitems := Chain.unpush?_eq_some hx
      have hchain := h.chain
      rw [hitems] at hchain
      rw [hitems, List.length_append, List.length_singleton, ← Nat.add_assoc] at hback
      obtain ⟨hslot, hlast⟩ := hchain.find_last
      have hunpush := hchain.unpush
      rw [hback] at hslot hlast hunpush
      have hprev : q.front + items.toList.length = q.back - 1 := by omega
      refine ⟨{ n with
        heap := (n.heap.erase (spot q.back)).insert (spot (q.front + items.toList.length))
          { prev := link spot q.front before (q.front + items.toList.length) }
        back := some (spot (q.front + items.toList.length)) }, ?_, ?_⟩
      · rw [h.back, hslot]
        dsimp only [Except.bind, bind]
        rw [hlast]
        rfl
      · exact { h with chain := hunpush, back := by rw [hprev] }

theorem flush (h : n.Shows q spot before) :
    n.flush.1 = q.flush.1 ∧ n.flush.2.Shows q.flush.2 spot before := by
  have := q.front_le; have hle := q.flushed_le; have := q.complete_le
  have hready : n.flushed = n.complete ↔ q.flushed = q.complete := by
    rw [h.flushed, h.complete]
    exact h.spot_inj (by omega) (by omega) (by omega) (by omega)
  have hpublished : n.published = n.flushed ↔ q.published = some q.flushed := by
    rw [h.published, h.flushed]
    rcases q.published_eq with he | ⟨he, -⟩ <;> simp [he]
  unfold Linked.flush Queue.flush
  by_cases hb : q.flushed = q.complete
  · rw [if_pos (hready.2 hb), if_pos hb]
    exact ⟨rfl, h⟩
  · rw [if_neg (mt hready.1 hb), if_neg hb]
    exact ⟨congrArg not (decide_eq_decide.2 hpublished),
      { h with flushed := h.complete, published := h.complete }⟩

theorem hasUnflushed (h : n.Shows q spot before) : n.hasUnflushed = q.hasUnflushed := by
  have := q.front_le; have := q.flushed_le; have := q.complete_le
  have hstaged : n.flushed = n.back ↔ q.flushed = q.back := by
    rw [h.flushed, h.back]
    exact h.spot_inj (by omega) (by omega) (by omega) (by omega)
  exact decide_eq_decide.2 (not_congr hstaged)

/-! ### The reading end -/

theorem hasPrefetched (h : n.Shows q spot before) : n.hasPrefetched = q.hasPrefetched := by
  have hle := q.front_le; have := q.flushed_le; have := q.complete_le
  unfold Linked.hasPrefetched Queue.hasPrefetched
  rw [h.prefetched, h.front]
  cases hp : q.prefetched with
  | none => rfl
  | some p =>
    have hp := q.prefetched_le p hp
    have hseen := h.spot_inj (Nat.le_refl _) (by omega) hp.1 (by omega)
    rw [Option.map_some, Option.isSome_some, Bool.and_true]
    exact decide_eq_decide.2 ((not_congr hseen).trans ne_comm)

theorem prefetch (h : n.Shows q spot before) : n.prefetch.Shows q.prefetch spot before := by
  have hle := q.front_le; have := q.flushed_le; have := q.complete_le
  have hpublished : n.published = n.front ↔ q.published = some q.front := by
    rw [h.published, h.front]
    rcases q.published_eq with he | ⟨he, -⟩
    · rw [he, Option.map_some, h.spot_inj hle (by omega) (Nat.le_refl _) (by omega),
        Option.some_inj]
    · rw [he]
      exact iff_of_false nofun nofun
  unfold Linked.prefetch Queue.prefetch
  by_cases hb : q.published = some q.front
  · rw [if_pos (hpublished.2 hb), dif_pos hb]
    exact { h with published := rfl, prefetched := h.front }
  · rw [if_neg (mt hpublished.1 hb), dif_neg hb]
    exact { h with prefetched := h.published }

theorem checkRead (h : n.Shows q spot before) :
    n.checkRead.1 = q.checkRead.1 ∧ n.checkRead.2.Shows q.checkRead.2 spot before := by
  unfold Linked.checkRead Queue.checkRead
  rw [h.hasPrefetched]
  split
  · exact ⟨rfl, h⟩
  · exact ⟨h.prefetch.hasPrefetched, h.prefetch⟩

theorem advance (h : n.Shows q spot before) (hq : q.hasPrefetched = true) :
    ∃ n' before', n.advance = .ok ((q.advance hq).1, n') ∧
      n'.Shows (q.advance hq).2 spot before' := by
  have := (front_lt_of_hasPrefetched hq).1; have := q.flushed_le; have := q.complete_le
  have hback := front_add_length q
  unfold Linked.advance Queue.advance
  split
  · next hx =>
    rw [Chain.pop?_eq_none hx] at hback
    simp only [List.length_nil] at hback
    omega
  · next x items hx =>
    have hchain := h.chain
    rw [Chain.pop?_eq_some hx] at hchain
    rw [h.front, hchain.find_front]
    exact ⟨_, _, rfl, { h with chain := hchain.pop, front := rfl }⟩

theorem read (h : n.Shows q spot before) :
    ∃ n' before', n.read = .ok (q.read.1, n') ∧ n'.Shows q.read.2 spot before' := by
  unfold Linked.read Linked.checkRead Queue.read
  by_cases hq : q.hasPrefetched = true
  · rw [if_pos (h.hasPrefetched.trans hq), dif_pos hq]
    exact h.advance hq
  · rw [if_neg (by rw [h.hasPrefetched]; exact hq), dif_neg hq, h.prefetch.hasPrefetched]
    by_cases hq' : q.prefetch.hasPrefetched = true
    · rw [dif_pos hq', hq']
      exact h.prefetch.advance hq'
    · rw [dif_neg hq', Bool.eq_false_iff.2 hq']
      exact ⟨_, _, rfl, h.prefetch⟩

theorem probe (h : n.Shows q spot before) :
    ∃ n', n.probe = .ok (q.probe.1, n') ∧ n'.Shows q.probe.2 spot before := by
  obtain ⟨hready, hshows⟩ := h.checkRead
  have hseen := q.hasPrefetched_checkRead
  unfold Linked.probe Queue.probe
  generalize n.checkRead = answer at hready hshows
  generalize q.checkRead = answer' at hready hshows hseen
  obtain ⟨ready, n'⟩ := answer
  obtain ⟨ready', q'⟩ := answer'
  obtain rfl : ready = ready' := hready
  cases ready with
  | false => exact ⟨n', rfl, hshows⟩
  | true =>
    obtain ⟨x, xs, hxs⟩ := List.exists_cons_of_ne_nil (items_ne_nil (hseen rfl))
    have hchain := hshows.chain
    rw [hxs] at hchain
    refine ⟨n', ?_, hshows⟩
    dsimp only
    rw [hshows.front, hchain.find_front, Chain.head?_eq, hxs]
    rfl

/-- **An operation on nodes never fails,** and does what it does to the queue. -/
theorem serve (h : n.Shows q spot before) (A : Allocator) (r : Request α) :
    ∃ n' spot' before', n.serve A r = .ok ((q.serve r).1, n') ∧
      n'.Shows (q.serve r).2 spot' before' := by
  cases r with
  | write x incomplete =>
    obtain ⟨n', spot', hn, hs⟩ := h.write A x incomplete
    exact ⟨n', spot', before, by rw [Linked.serve, hn]; rfl, hs⟩
  | unwrite =>
    obtain ⟨n', hn, hs⟩ := h.unwrite
    exact ⟨n', spot, before, by rw [Linked.serve, hn]; rfl, hs⟩
  | flush =>
    obtain ⟨hflag, hs⟩ := h.flush
    exact ⟨_, spot, before, by rw [Linked.serve, hflag]; rfl, hs⟩
  | hasUnflushed => exact ⟨n, spot, before, by rw [Linked.serve, h.hasUnflushed]; rfl, h⟩
  | checkRead =>
    obtain ⟨hflag, hs⟩ := h.checkRead
    exact ⟨_, spot, before, by rw [Linked.serve, hflag]; rfl, hs⟩
  | probe =>
    obtain ⟨n', hn, hs⟩ := h.probe
    exact ⟨n', spot, before, by rw [Linked.serve, hn]; rfl, hs⟩
  | read =>
    obtain ⟨n', before', hn, hs⟩ := h.read
    exact ⟨n', spot, before', by rw [Linked.serve, hn]; rfl, hs⟩

end Shows

end Linked

end Queue

end MessagePipe
