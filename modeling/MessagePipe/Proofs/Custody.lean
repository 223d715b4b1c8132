import Mathlib.Algebra.Order.Group.Multiset
import Mathlib.Tactic.Abel
import MessagePipe.Proofs.History
import MessagePipe.Queue.Ends

/-!
# Where the items of a queue go

Whoever holds the ends of a queue may work with them in any order, and drop either at any time (§3
of the specification: storage is released when both ends are gone). A `Flow` says what went into the
queue meanwhile and what came out of it: read, taken back, or released with the last end. `Balance`
weighs a flow against what was stored before and after, and balances add up (`Balance.trans`); so it
is enough to look at one step, which is one of six `Moves`.

* `Moves.balance`: each of the six keeps the balance. What is read comes from the front and what is
  taken back from the end, so the order of what is read and released is the order written, and what
  is taken back is missing from it.
* `Ends.moves_step`: one step is one of them, also a step that is refused.
* `Ends.balance_run`: any number of them.
* `Ends.accounts_of_run`: a fresh queue. What was read, what was taken back and what is released
  with the second end is what was written, each once; nothing is released with the first end.

This is about queues whose items are told apart by where they went, with `Queue.Ends`; that the
nodes of a queue and the memory they are in do the same is in `Proofs/Linked` and `Proofs/Reclaim`,
which take the balance over from here.

Out of scope: what an item itself releases when it is dropped.
-/

namespace MessagePipe

open scoped List

universe u

namespace Queue

/-- The opposite end. -/
def Side.other : Side → Side
  | writer => reader
  | reader => writer

namespace Held

theorem isNone_eq (h : Held) (side : Side) : h.isNone = (!h.has side && !h.has side.other) := by
  cases side with
  | writer => rfl
  | reader => exact Bool.and_comm ..

theorem isNone_without (h : Held) (side : Side) :
    (h.without side).isNone = !h.has side.other := by
  cases side with
  | writer => exact Bool.true_and _
  | reader => exact Bool.and_true _

theorem without_of_missing {h : Held} {side : Side} (hm : h.has side = false) :
    h.without side = h := by
  cases side <;> cases h <;> cases hm <;> rfl

end Held

namespace Ends

variable {α : Type u}

/-- What is stored, oldest first: what is published, what is complete, what is open. -/
def stored (e : Ends α) : List α :=
  e.queue.segments.all

/-- Is this the only end that is held? -/
def isLast (e : Ends α) (side : Side) : Bool :=
  e.held.has side && !e.held.has side.other

theorem drop_eq (e : Ends α) (side : Side) :
    e.drop side = if e.isLast side then
      (e.stored, { queue := .empty, held := e.held.without side })
    else ([], { e with held := e.held.without side }) := by
  unfold drop isLast stored
  rw [all_segments, ← Held.isNone_without]

/-! ## What goes in and what comes out -/

/-- What went into a queue, and what came out of it. -/
structure Flow (α : Type u) where
  /-- What was staged, in order. -/
  written : List α := []
  /-- What was read, in order. -/
  read : List α := []
  /-- What the writer took back, in order. -/
  takenBack : List α := []
  /-- What the queue itself released, in order. -/
  released : List α := []

/-- One flow after the other. -/
def Flow.append (f g : Flow α) : Flow α where
  written := f.written ++ g.written
  read := f.read ++ g.read
  takenBack := f.takenBack ++ g.takenBack
  released := f.released ++ g.released

/-- The flow of a step, from its answer and the items released. -/
def Step.flow : Step α → Answer α → List α → Flow α
  | .request (.write x _), .response _, released => { written := [x], released }
  | .writeAll xs _, .response _, released => { written := xs, released }
  | .request .read, .response (.item x), released => { read := x.toList, released }
  | .readAll, .items xs, released => { read := xs, released }
  | .request .unwrite, .response (.item x), released => { takenBack := x.toList, released }
  | .unwriteAll, .items xs, released => { takenBack := xs, released }
  | _, _, released => { released }

/-- Does steps one after the other; the answers come with the items the queue itself released. -/
def run (e : Ends α) : List (Step α) → List (Answer α × List α) × Ends α
  | [] => ([], e)
  | s :: steps =>
    let (answer, e) := e.step s
    let (answers, e) := e.run steps
    (answer :: answers, e)

/-- The flow of steps that were answered so. -/
def flow : List (Step α) → List (Answer α × List α) → Flow α
  | s :: steps, (answer, released) :: answers =>
    (s.flow answer released).append (flow steps answers)
  | _, _ => {}

theorem run_cons (e : Ends α) (s : Step α) (steps : List (Step α)) :
    e.run (s :: steps) =
      ((e.step s).1 :: ((e.step s).2.run steps).1, ((e.step s).2.run steps).2) :=
  rfl

/-! ## Balances -/

/-- Everything that was stored or went in came out or is stored, and what came out at the front is
in order. Nothing is released as long as an end is held, and nothing happens behind that. -/
structure Balance (e e' : Ends α) (f : Flow α) : Prop where
  once : (f.read ++ f.takenBack ++ (f.released ++ e'.stored)).Perm (e.stored ++ f.written)
  ordered : (f.read ++ (f.released ++ e'.stored)).Sublist (e.stored ++ f.written)
  early : e'.held.isNone = false → e.held.isNone = false ∧ f.released = []
  late : e.held.isNone = true → e' = e ∧ f = {}
  emptied : e.held.isNone = false → e'.held.isNone = true → e'.stored = []

namespace Balance

variable {e e' e'' : Ends α} {f g : Flow α}

theorem refl (e : Ends α) : Balance e e {} where
  once := by simp
  ordered := by simp
  early h := ⟨h, rfl⟩
  late _ := ⟨rfl, rfl⟩
  emptied h h' := absurd (h.symm.trans h') Bool.false_ne_true

/-- As long as an end is held it is enough to weigh what was read and taken back. -/
theorem of_held (hh : e.held.isNone = false) (hh' : e'.held.isNone = false)
    (hf : f.released = []) (once : (f.read ++ f.takenBack ++ e'.stored) ~ (e.stored ++ f.written))
    (ordered : (f.read ++ e'.stored).Sublist (e.stored ++ f.written)) : Balance e e' f where
  once := by simpa [hf] using once
  ordered := by simpa [hf] using ordered
  early _ := ⟨hh, hf⟩
  late h := absurd (hh.symm.trans h) Bool.false_ne_true
  emptied _ h := absurd (hh'.symm.trans h) Bool.false_ne_true

/-- Balances add up. -/
theorem trans (h : Balance e e' f) (h' : Balance e' e'' g) : Balance e e'' (f.append g) where
  once :=
    calc (f.read ++ g.read) ++ (f.takenBack ++ g.takenBack) ++
          ((f.released ++ g.released) ++ e''.stored)
      _ ~ (f.read ++ f.takenBack ++ f.released) ++
          (g.read ++ g.takenBack ++ (g.released ++ e''.stored)) := by
        simp only [← Multiset.coe_eq_coe, ← Multiset.coe_add]
        abel
      _ ~ (f.read ++ f.takenBack ++ f.released) ++ (e'.stored ++ g.written) :=
        h'.once.append_left _
      _ ~ (f.read ++ f.takenBack ++ (f.released ++ e'.stored)) ++ g.written := by simp
      _ ~ (e.stored ++ f.written) ++ g.written := h.once.append_right _
      _ ~ e.stored ++ (f.written ++ g.written) := by simp
  ordered := by
    cases hgone : e'.held.isNone with
    | true =>
      obtain ⟨rfl, rfl⟩ := h'.late hgone
      simpa [Flow.append] using h.ordered
    | false =>
      have hf := h.ordered.append_right g.written
      have hg := h'.ordered.append_left f.read
      rw [(h.early hgone).2] at hf
      simpa [Flow.append, (h.early hgone).2] using hg.trans (by simpa using hf)
  early hheld := by
    obtain ⟨hheld', hg⟩ := h'.early hheld
    obtain ⟨hheld, hf⟩ := h.early hheld'
    exact ⟨hheld, by rw [Flow.append, hf, hg]; rfl⟩
  late hgone := by
    obtain ⟨rfl, rfl⟩ := h.late hgone
    obtain ⟨rfl, rfl⟩ := h'.late hgone
    exact ⟨rfl, rfl⟩
  emptied hheld hgone := by
    cases hgone' : e'.held.isNone with
    | true =>
      obtain ⟨rfl, -⟩ := h'.late hgone'
      exact h.emptied hheld hgone
    | false => exact h'.emptied hgone' hgone

end Balance

/-! ## One step -/

/-- What a step does to the items. -/
inductive Moves (e e' : Ends α) : Flow α → Prop
  /-- The end it needs is missing. -/
  | idle (he : e' = e) : Moves e e' {}
  /-- They stay, also where the first end is dropped. -/
  | rest (hs : e'.stored = e.stored) (hh : e.held.isNone = false)
      (hh' : e'.held.isNone = false) : Moves e e' {}
  /-- Some are staged. -/
  | write {xs : List α} (hs : e'.stored = e.stored ++ xs) (hh : e.held.isNone = false)
      (hh' : e'.held.isNone = false) : Moves e e' { written := xs }
  /-- The oldest ones are read. -/
  | read {xs : List α} (hs : xs ++ e'.stored = e.stored) (hh : e.held.isNone = false)
      (hh' : e'.held.isNone = false) : Moves e e' { read := xs }
  /-- The newest ones are taken back. -/
  | takeBack {xs : List α} (hs : e'.stored ++ xs.reverse = e.stored)
      (hh : e.held.isNone = false) (hh' : e'.held.isNone = false) : Moves e e' { takenBack := xs }
  /-- The last end is dropped. -/
  | release (hs : e'.stored = []) (hh : e.held.isNone = false) (hh' : e'.held.isNone = true) :
      Moves e e' { released := e.stored }

theorem Moves.balance {e e' : Ends α} {f : Flow α} (h : Moves e e' f) : Balance e e' f := by
  cases h with
  | idle he => exact he ▸ .refl e
  | rest hs hh hh' => exact .of_held hh hh' rfl (by simp [hs]) (by simp [hs])
  | write hs hh hh' => exact .of_held hh hh' rfl (by simp [hs]) (by simp [hs])
  | read hs hh hh' => exact .of_held hh hh' rfl (by simp [← hs]) (by simp [← hs])
  | @takeBack xs hs hh hh' =>
    refine .of_held hh hh' rfl ?_ (by simp [← hs])
    calc [] ++ xs ++ e'.stored
      _ ~ xs.reverse ++ e'.stored := (List.reverse_perm xs).symm.append_right _
      _ ~ e'.stored ++ xs.reverse := List.perm_append_comm
      _ ~ e.stored ++ [] := by rw [hs, List.append_nil]
  | release hs hh hh' =>
    exact ⟨by simp [hs], by simp [hs], fun h => absurd (h.symm.trans hh') Bool.false_ne_true,
      fun h => absurd (hh.symm.trans h) Bool.false_ne_true, fun _ _ => hs⟩

theorem moves_serve {e : Ends α} (r : Request α) (hh : e.held.isNone = false) :
    Moves e { e with queue := (e.queue.serve r).2 }
      ((Step.request r).flow (.response (e.queue.serve r).1) []) := by
  obtain ⟨hr, hq⟩ := serve_segments e.queue r
  rw [hr]
  cases r with
  | write x incomplete =>
    refine .write ?_ hh hh
    rw [stored, hq]
    exact Segments.all_write ..
  | unwrite =>
    refine .takeBack ?_ hh hh
    have hrev : ∀ x : Option α, x.toList.reverse = x.toList := by rintro (_ | x) <;> rfl
    rw [stored, hq, hrev]
    exact Segments.all_unwrite _
  | flush => exact .rest (by rw [stored, hq]; exact Segments.all_flush _) hh hh
  | hasUnflushed => exact .rest rfl hh hh
  | checkRead | probe => exact .rest (by rw [stored, hq]; exact Segments.all_park _) hh hh
  | read =>
    refine .read ?_ hh hh
    rw [stored, hq]
    exact Segments.all_read _

theorem moves_drop (e : Ends α) (side : Side) :
    Moves e (e.drop side).2 { released := (e.drop side).1 } := by
  rw [drop_eq]
  have hnone := e.held.isNone_eq side
  have hleft := e.held.isNone_without side
  unfold isLast
  cases hside : e.held.has side with
  | false => exact .idle (by rw [Held.without_of_missing hside]; rfl)
  | true =>
    rw [hside] at hnone
    cases hother : e.held.has side.other with
    | false => exact .release rfl hnone (hleft.trans (by rw [hother]; rfl))
    | true => exact .rest rfl hnone (hleft.trans (by rw [hother]; rfl))

theorem stored_writeAll (q : Queue α) (incomplete : α → Bool) (xs : List α) :
    (q.writeAll incomplete xs).segments.all = q.segments.all ++ xs := by
  rw [segments_writeAll]
  generalize q.segments = s
  induction xs generalizing s with
  | nil => exact (List.append_nil _).symm
  | cons x xs ih => rw [List.foldl_cons, ih, Segments.all_write, List.append_assoc]; rfl

theorem moves_perform {e : Ends α} (s : Step α) (hh : e.held.isNone = false) :
    Moves e (e.perform s).2 (s.flow (e.perform s).1.1 (e.perform s).1.2) := by
  cases s with
  | request r => exact moves_serve r hh
  | writeAll xs incomplete => exact .write (stored_writeAll ..) hh hh
  | unwriteAll =>
    obtain ⟨hxs, hq⟩ := segments_unwriteAll e.queue
    refine .takeBack ?_ hh hh
    show e.queue.unwriteAll.2.segments.all ++ e.queue.unwriteAll.1.reverse = e.queue.segments.all
    rw [hxs, hq, List.reverse_reverse]
    simp [Segments.all]
  | readAll =>
    obtain ⟨hxs, hq⟩ := segments_readAll e.queue
    refine .read ?_ hh hh
    show e.queue.readAll.1 ++ e.queue.readAll.2.segments.all = e.queue.segments.all
    rw [hxs, hq]
    simp [Segments.all]
  | describe side => cases side <;> exact .rest rfl hh hh
  | drop side => exact moves_drop e side

theorem Step.flow_missing (s : Step α) (m : Missing) : s.flow (.missing m) [] = {} := by
  cases s with
  | request r => cases r <;> rfl
  | _ => rfl

/-- **A step moves items in one of six ways.** -/
theorem moves_step (e : Ends α) (s : Step α) :
    Moves e (e.step s).2 (s.flow (e.step s).1.1 (e.step s).1.2) := by
  unfold step
  cases hneeds : s.needs with
  | none =>
    cases s with
    | drop side => exact moves_drop e side
    | _ => cases hneeds
  | some side =>
    dsimp only
    split
    · next hheld =>
      exact moves_perform s (by rw [e.held.isNone_eq side, hheld]; rfl)
    · rw [Step.flow_missing]
      exact .idle rfl

theorem balance_run (e : Ends α) (steps : List (Step α)) :
    Balance e (e.run steps).2 (flow steps (e.run steps).1) := by
  induction steps generalizing e with
  | nil => exact .refl e
  | cons s steps ih => exact (moves_step e s).balance.trans (ih _)

/-- **Nothing is lost, and nothing comes out twice.** Whatever is done with the two ends of a fresh
queue: at any moment the items written are those that were read, taken back, released or are stored,
each once, and those that were not taken back are in the order they were written in. Nothing is
released while an end is held, and nothing is stored when none is. -/
theorem accounts_of_run (steps : List (Step α)) :
    let (answers, e) := (fresh : Ends α).run steps
    let f := flow steps answers
    (f.read ++ f.takenBack ++ (f.released ++ e.stored)) ~ f.written ∧
      (f.read ++ (f.released ++ e.stored)).Sublist f.written ∧
      (e.held.isNone = false → f.released = []) ∧ (e.held.isNone = true → e.stored = []) := by
  have h := balance_run fresh steps
  exact ⟨h.once, h.ordered, fun hheld => (h.early hheld).2, h.emptied rfl⟩

/-- A complete item that was not read and the fragment behind it go with the last end. -/
example : ((fresh : Ends Nat).run
    [.request (.write 1 false), .request (.write 2 false), .request .flush, .request .read,
      .request (.write 3 true), .drop .writer, .drop .reader]).1.map Prod.snd =
    [[], [], [], [], [], [], [2, 3]] := by
  decide

end Ends

end Queue

end MessagePipe
