import MessagePipe.Mailbox.Step

/-!
# A mailbox hands out what was sent, in order

Commands go from one owner to the other through a mailbox: delivery is asynchronous, and in order
per direction (§6 of the specification). What becomes of them where an owner is gone is to be as if
they had never been sent (§7). This module says so of `Mailbox` (`send`, `recv`, `try_recv`, and the
handles that are cloned and dropped), for every history.

* `leaves_step`: what one step does (`Step.Leaves`). A mailbox that is open keeps what was sent, in
  order; one that is closed takes nothing and gives nothing; and only the owner closes it.
* `History.fifo`: by induction on the history, what was taken is an initial part of what was sent,
  and with what is left it is all of it as long as the mailbox is open. A send that was refused is
  not counted as one.
* `run_receive`: an owner who keeps asking is given everything that was sent, so nothing is left
  behind.
* `run_of_closed`: a mailbox that is closed stays so.
* `receive_eq_ended_iff`: the owner is told of the end exactly where nothing is left and no handle
  is held, and `IsOver.run`: that is final. So an owner who was told of the end has missed nothing
  (`History.taken_all`).

The results about pairs take less from a mailbox: `Proofs/Pair` keeps every command underway,
whether it is taken or not.

Out of scope: an owner who waits. Here one that finds nothing is told so, and asks again when it
likes.
-/

namespace MessagePipe.Mailbox

/-! ## Histories -/

/-- The envelope a step sent, if it sent one. -/
def Step.accepted : Step × Answer → List Envelope
  | (.send _ e, .sent) => [e]
  | _ => []

/-- The envelope a step took, if it took one. -/
def Step.taken : Step × Answer → List Envelope
  | (_, .received (.envelope e)) => [e]
  | _ => []

/-- What was done to a fresh mailbox with what was answered, and the mailbox it came to. -/
inductive History : List (Step × Answer) → Mailbox → Prop where
  | fresh : History [] fresh
  | step {tr : List (Step × Answer)} {m : Mailbox} (h : History tr m) (s : Step) :
      History (tr ++ [(s, (m.step s).1)]) (m.step s).2

variable {m : Mailbox} {tr : List (Step × Answer)}

/-- What becomes of a mailbox in a step: one that is open keeps what was sent in order, one that is
closed takes nothing and gives nothing, and only the owner closes it. -/
inductive Step.Leaves (m : Mailbox) (s : Step) (a : Answer) (m' : Mailbox) : Prop where
  | receiving (hr : m.receiving = true) (hr' : m'.receiving = true)
      (books : m.queued.toList ++ accepted (s, a) = taken (s, a) ++ m'.queued.toList)
  | closed (hr' : m'.receiving = false) (hs : m.receiving = true → s = .dropInbox)
      (accepted : accepted (s, a) = []) (taken : taken (s, a) = [])

/-- A step that sends and takes nothing leaves the envelopes alone. -/
theorem Step.Leaves.of_quiet {m' : Mailbox} {s : Step} {a : Answer} (hq : m'.queued = m.queued)
    (hr : m'.receiving = m.receiving) (ha : accepted (s, a) = []) (ht : taken (s, a) = []) :
    Leaves m s a m' := by
  cases hm : m.receiving with
  | true => exact .receiving hm (hr.trans hm) (by rw [ha, ht, hq, List.append_nil, List.nil_append])
  | false =>
    exact .closed (hr.trans hm) (fun h => absurd (hm.symm.trans h) Bool.false_ne_true) ha ht

/-- **A step keeps what was sent in order, or finds the mailbox closed, or closes it.** -/
theorem leaves_step (m : Mailbox) (s : Step) : s.Leaves m (m.step s).1 (m.step s).2 := by
  cases s with
  | clone handle | isClosed handle =>
    dsimp only [step, withHandle]
    split <;> exact .of_quiet rfl rfl rfl rfl
  | dropHandle handle => exact .of_quiet rfl rfl rfl rfl
  | send handle e =>
    dsimp only [step, withHandle, send]
    split
    · cases hm : m.receiving with
      | true => exact .receiving hm rfl (by simp [Step.accepted, Step.taken])
      | false => exact .closed hm (fun h => absurd (hm.symm.trans h) Bool.false_ne_true) rfl rfl
    · exact .of_quiet rfl rfl rfl rfl
  | dropInbox => exact .closed rfl (fun _ => rfl) rfl rfl
  | receive =>
    dsimp only [step, receive]
    split
    · next hm =>
      cases hp : m.queued.pop? with
      | none => cases m.handles.any id <;> exact .of_quiet rfl rfl rfl rfl
      | some popped =>
        obtain ⟨e, rest⟩ := popped
        exact .receiving hm hm (by simp [Step.accepted, Step.taken, Chain.pop?_eq_some hp])
    · exact .of_quiet rfl rfl rfl rfl

/-- **What was taken, with what is left, is what was sent, in order.** -/
theorem History.fifo (h : History tr m) :
    tr.flatMap Step.taken <+: tr.flatMap Step.accepted ∧
      (m.receiving = true →
        tr.flatMap Step.accepted = tr.flatMap Step.taken ++ m.queued.toList) := by
  induction h with
  | fresh => exact ⟨List.prefix_rfl, fun _ => rfl⟩
  | @step tr m h s ih =>
    rw [List.flatMap_append, List.flatMap_append, List.flatMap_singleton, List.flatMap_singleton]
    cases m.leaves_step s with
    | receiving hr _ books =>
      have hall : tr.flatMap Step.accepted ++ Step.accepted (s, (m.step s).1) =
          tr.flatMap Step.taken ++ Step.taken (s, (m.step s).1) ++ (m.step s).2.queued.toList := by
        rw [ih.2 hr, List.append_assoc, books, List.append_assoc]
      exact ⟨hall ▸ List.prefix_append .., fun _ => hall⟩
    | closed hclosed _ haccepted htaken =>
      rw [haccepted, htaken, List.append_nil, List.append_nil]
      exact ⟨ih.1, fun hr => absurd (hclosed.symm.trans hr) Bool.false_ne_true⟩

/-! ## One step after the other -/

/-- Does one thing after the other. -/
def run (m : Mailbox) : List Step → List Answer × Mailbox
  | [] => ([], m)
  | s :: steps => ((m.step s).1 :: ((m.step s).2.run steps).1, ((m.step s).2.run steps).2)

/-- What every step keeps, while nothing is sent or taken, is kept by any number of steps. -/
theorem run_silent {P : Mailbox → Prop}
    (hstep : ∀ {m}, P m → ∀ s, P (m.step s).2 ∧ Step.accepted (s, (m.step s).1) = [] ∧
      Step.taken (s, (m.step s).1) = [])
    (hm : P m) (steps : List Step) :
    P (m.run steps).2 ∧
      ∀ e ∈ steps.zip (m.run steps).1, Step.accepted e = [] ∧ Step.taken e = [] := by
  induction steps generalizing m with
  | nil => exact ⟨hm, fun e he => by cases he⟩
  | cons s steps ih =>
    obtain ⟨hnext, hnothing⟩ := hstep hm s
    obtain ⟨hfinal, hrest⟩ := ih hnext
    exact ⟨hfinal, List.forall_mem_cons.2 ⟨hnothing, hrest⟩⟩

/-- **A mailbox that is closed stays closed,** and neither takes nor gives anything. -/
theorem run_of_closed (hm : m.receiving = false) (steps : List Step) :
    (m.run steps).2.receiving = false ∧
      ∀ e ∈ steps.zip (m.run steps).1, Step.accepted e = [] ∧ Step.taken e = [] := by
  refine run_silent (P := fun m => m.receiving = false) (fun {m} hm s => ?_) hm steps
  cases m.leaves_step s with
  | receiving hr => exact absurd (hm.symm.trans hr) Bool.false_ne_true
  | closed hclosed _ haccepted htaken => exact ⟨hclosed, haccepted, htaken⟩

/-- An owner who keeps asking is given everything that was sent. -/
theorem run_receive (hm : m.receiving = true) :
    (m.run (List.replicate m.queued.toList.length .receive)).1 =
        m.queued.toList.map (fun e => .received (.envelope e)) ∧
      (m.run (List.replicate m.queued.toList.length .receive)).2.queued.toList = [] := by
  generalize hes : m.queued.toList = es
  induction es generalizing m with
  | nil => exact ⟨rfl, hes⟩
  | cons e es ih =>
    cases hp : m.queued.pop? with
    | none =>
      rw [Chain.pop?_eq_none hp] at hes
      cases hes
    | some popped =>
      obtain ⟨e', rest⟩ := popped
      obtain ⟨rfl, hrest⟩ := List.cons.inj ((Chain.pop?_eq_some hp).symm.trans hes)
      have hstep : m.step .receive = (.received (.envelope e'), { m with queued := rest }) := by
        dsimp only [step, receive]
        rw [if_pos hm, hp]
      obtain ⟨hanswers, hempty⟩ := ih (m := { m with queued := rest }) hm hrest
      rw [List.length_cons, List.replicate_succ, run, hstep, List.map_cons]
      exact ⟨congrArg _ hanswers, hempty⟩

/-! ## The end -/

/-- Nothing is left, and nobody can send any more. -/
structure IsOver (m : Mailbox) : Prop where
  nothing : m.queued.toList = []
  unheld : ∀ held ∈ m.handles, held = false

theorem IsOver.receive (h : m.IsOver) : m.receive = (.ended, m) := by
  unfold Mailbox.receive
  cases hp : m.queued.pop? with
  | none =>
    have hany : ¬m.handles.any id = true := by simpa using h.unheld
    dsimp only
    rw [if_neg hany]
  | some popped =>
    have hcons := Chain.pop?_eq_some hp
    rw [h.nothing] at hcons
    cases hcons

/-- An owner is told of the end when it is there, and not before. -/
theorem receive_eq_ended_iff : m.receive.1 = .ended ↔ m.IsOver := by
  refine ⟨fun h => ?_, fun h => congrArg Prod.fst h.receive⟩
  unfold Mailbox.receive at h
  split at h
  · cases h
  · next hp =>
    split at h
    · cases h
    · next hany => exact ⟨Chain.pop?_eq_none hp, by simpa using hany⟩

/-- **The end is final:** a mailbox that is over stays so, takes nothing and gives nothing. -/
theorem IsOver.step (h : m.IsOver) (s : Step) :
    (m.step s).2.IsOver ∧ Step.accepted (s, (m.step s).1) = [] ∧
      Step.taken (s, (m.step s).1) = [] := by
  have hunheld : ∀ (handle : Nat) (f : Answer × Mailbox),
      m.withHandle handle f = (.missing .handle, m) := fun handle f => by
    refine if_neg (Bool.eq_false_iff.1 ?_)
    rw [holds, List.getD_eq_getElem?_getD]
    cases hheld : m.handles[handle]? with
    | none => rfl
    | some held => exact h.unheld held (List.mem_of_getElem? hheld)
  cases s with
  | clone handle | isClosed handle | send handle e =>
    rw [Mailbox.step, hunheld]
    exact ⟨h, rfl, rfl⟩
  | dropHandle handle =>
    refine ⟨⟨h.nothing, fun held hm => ?_⟩, rfl, rfl⟩
    exact (List.mem_or_eq_of_mem_set hm).elim (h.unheld held) id
  | dropInbox => exact ⟨⟨rfl, h.unheld⟩, rfl, rfl⟩
  | receive =>
    dsimp only [Mailbox.step]
    rw [h.receive]
    split <;> exact ⟨h, rfl, rfl⟩

/-- At the end everything that was sent has been taken. -/
theorem History.taken_all (h : History tr m) (hm : m.receiving = true) (ho : m.IsOver) :
    tr.flatMap Step.taken = tr.flatMap Step.accepted := by
  rw [h.fifo.2 hm, ho.nothing, List.append_nil]

/-- So it stays, whatever is done. -/
theorem IsOver.run (h : m.IsOver) (steps : List Step) :
    (m.run steps).2.IsOver ∧
      ∀ e ∈ steps.zip (m.run steps).1, Step.accepted e = [] ∧ Step.taken e = [] :=
  run_silent IsOver.step h steps

end MessagePipe.Mailbox
