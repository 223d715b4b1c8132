import MessagePipe.Proofs.Backlog

/-!
# Handing commands on comes to an end

The commands that arrived at the two ends are handed on one by one, in any order, with no call in
between, as an owner loop does that hands each delivered command to its pipe (§6 of the
specification). An end answers some of them, and its peer some of the answers. No core operation
blocks (§5), so the question is only whether the two can go on answering each other forever. They
cannot: a replaced queue and a request are answered once, an acknowledgment only by an end that
asked to terminate, and no end comes to ask by a command.

* `Link.handOn`: hands any of the commands that arrived to its pipe, also one that is not the
  oldest; `Link.handAll` goes through an order of them and counts those that were there.
* `Link.turned_handOn`: it changes a pair as one endpoint reacts, and the other commands stay where
  they are.
* `Link.backlog_handOn`: so every command that is handed on lowers the backlog of the pair
  (`Proofs/Backlog`).
* `Link.handAll_add_backlog_le`: no order hands on more commands than the backlog says.
* `Link.handing_on_ends`: the backlog in terms of the commands that arrived: as many as there are,
  and once more for each notice, each request, and each end that asked to terminate and was not
  answered.

There is no premise: the state of the ends may be any, whoever made the commands up, and a command
that raises a fault has been handed on.

Out of scope: exchanges of many pairs (`Proofs/Settling`). Which state the pair ends in is in
`Proofs/Confluence`.
-/

namespace MessagePipe

/-- Takes the `i`-th of the envelopes that were sent, whatever was sent before it. -/
def Mailbox.take? (m : Mailbox) (i : Nat) : Option (Envelope × Mailbox) :=
  m.queued.toList[i]?.map fun e =>
    (e, { m with queued := .ofList (m.queued.toList.eraseIdx i) })

namespace Link

/-! ## Handing commands on in any order -/

/-- Hands the `i`-th of the commands that arrived at side `s` to its pipe; `none` where there are
not that many. -/
def handOn (l : Link) (s : Side) (i : Nat) : Option (Report × Link) :=
  ((l.side s).inbox.take? i).map fun (e, inbox) =>
    (l.put s { l.side s with inbox }).process s e.command

/-- Hands commands on in the given order, and counts those that were there. -/
def handAll (l : Link) : List (Side × Nat) → Nat × Link
  | [] => (0, l)
  | (s, i) :: order =>
    match l.handOn s i with
    | none => l.handAll order
    | some (_, l) =>
      let (n, l) := l.handAll order
      (n + 1, l)

/-- A command that is handed on changes a pair as one endpoint reacts, and the others stay where
they are. -/
theorem turned_handOn {l l' : Link} {s : Side} {i : Nat} {rep : Report}
    (h : l.handOn s i = some (rep, l')) :
    ∃ c r, (c :: l'.commands s).Perm (l.commands s) ∧ Turned l s (.command c) r rep l' := by
  unfold handOn Mailbox.take? at h
  rw [Option.map_map, Option.map_eq_some_iff] at h
  obtain ⟨e, he, h⟩ := h
  obtain ⟨hi, rfl⟩ := List.getElem?_eq_some_iff.1 he
  dsimp only [Function.comp_apply] at h
  have hturn : (l.put s { l.side s with
      inbox := { (l.side s).inbox with
        queued := .ofList ((l.side s).inbox.queued.toList.eraseIdx i) } }).turn s = l.turn s := by
    unfold turn
    rw [side_put_self, queues_put]
  rw [process, hturn] at h
  obtain ⟨rfl, rfl⟩ := Prod.mk.inj h
  refine ⟨_, _, ?_, turned_settle l s _ (Turn.reacts_process (l.quiet_turn s) _) rfl⟩
  rw [commands, inbox_settle_self, side_put_self, Chain.toList_ofList, ← List.map_cons]
  exact (List.getElem_cons_eraseIdx_perm hi).map _

/-- **Every command that is handed on lowers the backlog.** -/
theorem backlog_handOn {l l' : Link} {s : Side} {i : Nat} {rep : Report}
    (h : l.handOn s i = some (rep, l')) : l'.backlog < l.backlog := by
  obtain ⟨c, r, hp, ht⟩ := turned_handOn h
  exact ht.backlog_lt hp

/-- **No order hands on more commands than the backlog says.** -/
theorem handAll_add_backlog_le (l : Link) (order : List (Side × Nat)) :
    (l.handAll order).1 + (l.handAll order).2.backlog ≤ l.backlog := by
  induction order generalizing l with
  | nil => exact Nat.le_of_eq (Nat.zero_add _)
  | cons next order ih =>
    obtain ⟨s, i⟩ := next
    unfold handAll
    cases h : l.handOn s i with
    | none => exact ih l
    | some found =>
      obtain ⟨rep, l'⟩ := found
      have hlt := backlog_handOn h
      have hle := ih l'
      dsimp only
      omega

/-- All commands that arrived and were not handed on. -/
def underway (l : Link) : List Command :=
  l.commands .a ++ l.commands .b

/-- The number of ends that asked to terminate and were not answered. -/
def asking (l : Link) : Nat :=
  [Side.a, Side.b].countP fun s => (l.side s).pipe.state.answersAck

theorem backlog_eq_underway (l : Link) :
    l.backlog = l.underway.length + l.underway.countP CommandOf.isHiccup +
      l.underway.count .pipeTerm + l.asking := by
  have hasking : l.asking =
      (l.side .a).pipe.state.answersAck.toNat + (l.side .b).pipe.state.answersAck.toNat := by
    unfold asking
    cases ha : (l.side .a).pipe.state.answersAck <;>
      cases hb : (l.side .b).pipe.state.answersAck <;>
      simp [ha, hb]
  have hunder : backlogOfAll l.underway = l.underway.length +
      l.underway.countP CommandOf.isHiccup + l.underway.count .pipeTerm := rfl
  rw [← hunder, hasking, underway, backlogOfAll_append, backlog, backlogOf, backlogOf]
  omega

/-- **Handing commands on comes to an end.** Whatever the state of a pair, and whoever made up the
commands that arrived at its ends, no order hands on more commands than there are, and once more for
each notice of a replaced queue, each request to terminate, and each end that asked to terminate and
was not answered. So the two ends never answer each other for ever. -/
theorem handing_on_ends (l : Link) :
    (∀ order, (l.handAll order).1 ≤ l.underway.length + l.underway.countP CommandOf.isHiccup +
      l.underway.count .pipeTerm + l.asking) ∧
    WellFounded fun l' l : Link => ∃ s i rep, l.handOn s i = some (rep, l') := by
  refine ⟨fun order => ?_, ?_⟩
  · rw [← backlog_eq_underway]
    exact (Nat.le_add_right ..).trans (l.handAll_add_backlog_le order)
  · refine Subrelation.wf (fun h => ?_) (measure backlog).wf
    obtain ⟨s, i, rep, h⟩ := h
    exact backlog_handOn h

/-- The number is reached: one end asked to terminate, and its request, the acknowledgment and the
answer to that are handed on. -/
example : ((create {} { options := {} } { options := { delay := false } }).map fun l =>
    let l := (l.call .a (.terminate false)).2
    (l.backlog, (l.handAll [(.b, 0), (.a, 0), (.b, 0), (.a, 0)]).1)) = .ok (3, 3) := by
  rfl

end Link

end MessagePipe
