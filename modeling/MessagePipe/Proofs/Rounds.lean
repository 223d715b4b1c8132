import MessagePipe.Proofs.Turns
import MessagePipe.Transfer.Schedule

/-!
# The tasks of a transfer take turns until neither can go on

`Transfer.run` lets the two tasks take turns for at most `maxRounds` rounds (§11.5 of the
specification has them as tasks of one runtime, with no bound). Here it is shown that the bound is
never what ends them. It also says what a poll costs, which is how `Proofs/Completion` bounds the
polls of a transfer in any order.

What is left to do is counted by `Link.toil` (`Proofs/Toil`) and by what the tasks have left to
spend (`Proofs/Turns`).

* `Transfer.toil`: the two together. At the start it is two for each message and eight more
  (`toil_of_create`).
* `Transfer.poll_rests`: a task comes to rest whenever it is polled, with less left to do if it may
  be polled (`Transfer.MayPoll`).
* `Transfer.effort`: how many turns the tasks can take at most before neither can go on. It is the
  toil, with one turn more for a task whose mailbox has come to its end; `effort_poll_lt` and
  `effort_poll_le` say what a poll does to it.
* `effort_round_lt`: a round in which a task can go on lowers the effort.
* `effort_le_maxRounds`: the effort is within the bound, whatever was called before the tasks take
  over: each of those calls leaves at most five more to do (`IsSound.toil_call_le`).
* `isOver_of_run`: so a transfer ends where neither task can go on, and `run_eq_rounds`: a larger
  bound would give the same transfer.

There is no premise on what owners call before the tasks take over, and none on delay or on sinks,
so a transfer that gets stuck is covered: it is over as well.

Out of scope: whether both tasks have ended by then, which is `Proofs/Completion`.
-/

namespace MessagePipe

/-- The side a task drives. -/
def Role.side : Role → Side
  | .writer => .a
  | .reader => .b

/-! ## What a call costs before the tasks take over -/

theorem Call.length_accepted_le (c : Call) (res : Except Fault Reply) :
    (c.accepted res).length ≤ 1 := by
  unfold accepted
  split
  · exact Nat.le_refl _
  · exact Nat.zero_le _

theorem Call.length_obtained_le (c : Call) (res : Except Fault Reply) :
    (c.obtained res).length ≤ 1 := by
  unfold obtained
  split
  · exact Nat.le_refl _
  · exact Nat.zero_le _

/-- A call completes one message at most, -/
theorem Call.messages_sent_le (c : Call) (r : Reaction) :
    messages ((Stimulus.call c).sent [] r) ≤ 1 :=
  (List.countP_le_length.trans (List.length_take_le' ..)).trans (c.length_accepted_le _)

/-- reads one at most, -/
theorem Reacts.msgsRead_le {p : Pipe} {v : View} {c : Call} {r : Reaction}
    (h : Reacts p v (.call c) r) : r.pipe.msgsRead ≤ p.msgsRead + 1 := by
  rw [h.msgsRead_eq]
  exact Nat.add_le_add_left (List.countP_le_length.trans (c.length_obtained_le _)) _

/-- and makes an end send two commands at most, of which one tells of a replaced queue. -/
theorem Reacts.dues_le {p : Pipe} {v : View} {c : Call} {r : Reaction}
    (h : Reacts p v (.call c) r) :
    (Stimulus.call c).dues p r + 2 * (Stimulus.call c).replacing ≤ 3 ∧
      2 * (Stimulus.call c).dues p r + (Stimulus.call c).replacing ≤
        4 + 2 * (r.pipe.msgsRead - p.msgsRead) := by
  have hread := h.msgsRead_le
  unfold Stimulus.dues Stimulus.replacing
  cases c with
  | read =>
    dsimp only
    omega
  | _ =>
    dsimp only
    omega

namespace Link

variable {l l' : Link} {s : Side} {c : Command}

theorem toil_of_create {config : Config} {a b : Plan} (h : create config a b = .ok l) :
    l.toil = 5 := by
  obtain ⟨log, rfl⟩ := eq_of_create h
  rfl

/-- No call leaves more than five more to do, whoever makes it. -/
theorem IsSound.toil_call_le (h : l.IsSound) (s : Side) (c : Call) :
    (l.call s c).2.toil ≤ l.toil + 5 := by
  obtain ⟨r, ht⟩ := l.took_call s c
  obtain ⟨hdues, hdues'⟩ := ht.reacts.dues_le
  cases s with
  | a =>
    have htoil := ht.toil_a
    have hclosing := ht.reacts.closing_le
    have hsent := c.messages_sent_le r
    have hl : (l.step (.call .a c)).2 = (l.call .a c).2 := rfl
    rw [hl] at htoil
    omega
  | b =>
    have htoil := ht.toil_b (h.took_le ht)
    have hl : (l.step (.call .b c)).2 = (l.call .b c).2 := rfl
    rw [hl] at htoil
    omega

end Link

namespace Transfer

/-- In what phase a task is. -/
def phase (t : Transfer) : Role → Phase
  | .writer => t.writer.phase
  | .reader => t.reader.phase

/-- May a task be polled? It has not started, or waits and has a command to take. -/
def MayPoll (t : Transfer) (role : Role) : Prop :=
  t.phase role = .unstarted ∨ t.phase role = .waiting ∧ t.link.commands role.side ≠ []

instance (t : Transfer) (role : Role) : Decidable (t.MayPoll role) :=
  inferInstanceAs (Decidable (_ ∨ _ ∧ _))

/-- What is left to do of a transfer. -/
def toil (t : Transfer) : Nat :=
  t.link.toil + Behaviour.budget (WriterStats.cost t.job) 1 t.writer +
    Behaviour.budget (fun _ => 0) 0 t.reader

variable {t : Transfer} {role : Role}

theorem toil_of_create {config : Config} {a b : Link.Plan} {l : Link}
    (h : Link.create config a b = .ok l) (j : Job) :
    toil { job := j, link := l } = 2 * j.messages + 8 := by
  rw [toil, Link.toil_of_create h]
  unfold Behaviour.budget WriterStats.cost
  dsimp only
  omega

/-- **A task comes to rest whenever it is polled,** with less left to do if it may be polled. -/
theorem poll_rests (t : Transfer) (hl : t.link.IsSound) (role : Role) :
    (t.poll role).job = t.job ∧ (t.poll role).link.IsSound ∧
      (t.poll role).isReady role = false ∧ (t.poll role).toil ≤ t.toil ∧
      (t.MayPoll role → (t.poll role).toil < t.toil) := by
  cases role with
  | writer =>
    have h := pays_writing t.job
    obtain ⟨hsound, hrest, hle⟩ := h.pollIfReady_le hl t.writer
    refine ⟨rfl, hsound, hrest, ?_, fun hp => ?_⟩
    · exact Nat.add_le_add_right (Nat.le_of_lt_succ hle) _
    · exact Nat.add_lt_add_right (h.pollIfReady_lt hl hp).toil _
  | reader =>
    have h := pays_reading
    obtain ⟨hsound, hrest, hle⟩ := h.pollIfReady_le hl t.reader
    unfold toil
    rw [Nat.add_right_comm t.link.toil, Nat.add_right_comm (t.poll .reader).link.toil]
    refine ⟨rfl, hsound, hrest, ?_, fun hp => ?_⟩
    · exact Nat.add_le_add_right (Nat.le_of_lt_succ hle) _
    · exact Nat.add_lt_add_right (h.pollIfReady_lt hl hp).toil _

/-! ## Rounds -/

/-- A task that has not ended has a turn left, if only to find its mailbox at its end. -/
def Phase.turns : Phase → Nat
  | .unstarted | .waiting => 1
  | .finished | .failed _ => 0

theorem Phase.turns_le (phase : Phase) : phase.turns ≤ 1 := by
  cases phase with
  | unstarted | waiting => exact Nat.le_refl _
  | finished | failed => exact Nat.zero_le _

namespace Behaviour

variable {σ : Type} {β : Behaviour σ} {cost : σ → Nat} {fee : Nat} {u : Task σ} {l : Link}

/-- How many turns a task can take at most on its own account. -/
def stake (cost : σ → Nat) (fee : Nat) (u : Task σ) : Nat :=
  budget cost fee u + u.phase.turns

theorem turns_of_isReady (h : β.isReady u l = true) : u.phase.turns = 1 := by
  unfold isReady at h
  cases hp : u.phase with
  | unstarted | waiting => rfl
  | finished | failed =>
    rw [hp] at h
    cases h

/-- A task that can go on without a command finds its mailbox at its end. -/
theorem pollIfReady_of_ended (h : β.isReady u l = true)
    (hn : ¬ (u.phase = .unstarted ∨ u.phase = .waiting ∧ l.commands β.side ≠ [])) :
    (β.pollIfReady u l).1.phase = .finished := by
  rw [pollIfReady, if_pos h]
  unfold poll
  rw [isReady] at h
  cases hp : u.phase with
  | unstarted => exact absurd (.inl hp) hn
  | waiting =>
    have hc : l.commands β.side = [] := by_contra fun hc => hn (.inr ⟨hp, hc⟩)
    obtain ⟨found, hr, hfound⟩ := Link.receive_nil hc
    have hfirst : (l.side β.side).inbox.receive.1 = found := congrArg Prod.fst hr
    rw [hp] at h
    dsimp only at h ⊢
    rw [hfirst] at h
    rw [patience, listen, hr]
    cases found with
    | envelope e => exact absurd rfl (hfound e)
    | nothingYet => cases h
    | ended => rfl
  | finished | failed =>
    rw [hp] at h
    cases h

/-- **A task that can go on takes a turn,** -/
theorem Pays.stake_lt (h : β.Pays cost fee) (hl : l.IsSound) (hr : β.isReady u l = true) :
    (β.pollIfReady u l).2.toil + stake cost fee (β.pollIfReady u l).1 <
      l.toil + stake cost fee u := by
  unfold stake
  rw [turns_of_isReady hr]
  by_cases hgo : u.phase = .unstarted ∨ u.phase = .waiting ∧ l.commands β.side ≠ []
  · have hlt := (h.pollIfReady_lt hl hgo).toil
    have hturns := (β.pollIfReady u l).1.phase.turns_le
    omega
  · have hle := (h.pollIfReady_le hl u).toil
    rw [pollIfReady_of_ended hr hgo, Phase.turns]
    omega

theorem pollIfReady_of_not (hr : ¬ β.isReady u l = true) : β.pollIfReady u l = (u, l) :=
  if_neg hr

/-- and no task ever gains one. -/
theorem Pays.stake_le (h : β.Pays cost fee) (hl : l.IsSound) (u : Task σ) :
    (β.pollIfReady u l).2.toil + stake cost fee (β.pollIfReady u l).1 ≤
      l.toil + stake cost fee u := by
  by_cases hr : β.isReady u l = true
  · exact (h.stake_lt hl hr).le
  · rw [pollIfReady_of_not hr]

end Behaviour

open Behaviour (stake)

/-- How many turns the tasks can take at most before neither can go on. -/
def effort (t : Transfer) : Nat :=
  t.link.toil + stake (WriterStats.cost t.job) 1 t.writer + stake (fun _ => 0) 0 t.reader

theorem effort_poll_le (t : Transfer) (hl : t.link.IsSound) (role : Role) :
    (t.poll role).effort ≤ t.effort := by
  cases role with
  | writer => exact Nat.add_le_add_right ((pays_writing t.job).stake_le hl t.writer) _
  | reader =>
    unfold effort
    rw [Nat.add_right_comm t.link.toil, Nat.add_right_comm (t.poll .reader).link.toil]
    exact Nat.add_le_add_right (pays_reading.stake_le hl t.reader) _

theorem effort_poll_lt (hl : t.link.IsSound) (h : t.isReady role = true) :
    (t.poll role).effort < t.effort := by
  cases role with
  | writer => exact Nat.add_lt_add_right ((pays_writing t.job).stake_lt hl h) _
  | reader =>
    unfold effort
    rw [Nat.add_right_comm t.link.toil, Nat.add_right_comm (t.poll .reader).link.toil]
    exact Nat.add_lt_add_right (pays_reading.stake_lt hl h) _

theorem poll_of_not_isReady (h : t.isReady role = false) : t.poll role = t := by
  cases role with
  | writer =>
    unfold poll
    rw [Behaviour.pollIfReady_of_not (Bool.eq_false_iff.1 h)]
  | reader =>
    unfold poll
    rw [Behaviour.pollIfReady_of_not (Bool.eq_false_iff.1 h)]

/-- Can neither task go on? -/
def IsOver (t : Transfer) : Prop :=
  ∀ role, t.isReady role = false

/-- **A round in which a task can go on lowers the effort.** -/
theorem effort_round_lt (hl : t.link.IsSound) (h : ¬ t.IsOver) (first : Role) :
    ((t.poll first).poll (opposite first)).effort < t.effort := by
  obtain ⟨-, hl', -⟩ := t.poll_rests hl first
  have hle := (t.poll first).effort_poll_le hl' (opposite first)
  by_cases hf : t.isReady first = true
  · exact hle.trans_lt (effort_poll_lt hl hf)
  · have hf := Bool.eq_false_iff.2 hf
    have ho : t.isReady (opposite first) = true := by
      by_contra hn
      refine h fun role => ?_
      have hn := Bool.eq_false_iff.2 hn
      cases first <;> cases role <;> assumption
    rw [poll_of_not_isReady hf]
    exact effort_poll_lt hl ho

theorem isOver_iff (t : Transfer) :
    ¬ (t.isReady .writer || t.isReady .reader) = true ↔ t.IsOver := by
  rw [Bool.or_eq_true, not_or, Bool.not_eq_true, Bool.not_eq_true]
  constructor
  · rintro ⟨hw, hr⟩ role
    cases role with
    | writer => exact hw
    | reader => exact hr
  · exact fun h => ⟨h .writer, h .reader⟩

/-- **Where there are as many rounds as the tasks can take turns, neither can go on in the end.** -/
theorem isOver_rounds (first : Role) {n : Nat} (hl : t.link.IsSound) (hn : t.effort ≤ n) :
    (rounds first n t).IsOver := by
  induction n generalizing t with
  | zero =>
    by_contra h
    have := effort_round_lt hl h first
    rw [Nat.le_zero.1 hn] at this
    exact absurd this (Nat.not_lt_zero _)
  | succ n ih =>
    unfold rounds
    split
    · next hgo =>
      have hlt := effort_round_lt hl (fun h => (t.isOver_iff.2 h) hgo) first
      obtain ⟨-, hl', -⟩ := t.poll_rests hl first
      obtain ⟨-, hl'', -⟩ := (t.poll first).poll_rests hl' (opposite first)
      exact ih hl'' (by omega)
    · next hgo => exact t.isOver_iff.1 hgo

/-- Where neither task can go on, more rounds change nothing, -/
theorem rounds_of_isOver (h : t.IsOver) (first : Role) (n : Nat) : rounds first n t = t := by
  cases n with
  | zero => rfl
  | succ n => rw [rounds, if_neg (t.isOver_iff.2 h)]

/-- and rounds are taken one after the other. -/
theorem rounds_add (first : Role) (m n : Nat) (t : Transfer) :
    rounds first (m + n) t = rounds first n (rounds first m t) := by
  induction m generalizing t with
  | zero => rw [Nat.zero_add, rounds]
  | succ m ih =>
    rw [Nat.succ_add, rounds, rounds]
    split
    · exact ih _
    · next hgo => rw [rounds_of_isOver (t.isOver_iff.1 hgo)]

/-! ## Whole transfers -/

/-- Calls before the tasks take over leave a bounded number of commands to take. -/
theorem toil_prepare_le {l : Link} (hl : l.IsSound) (calls : List (Side × Call)) :
    (prepare l calls).IsSound ∧ (prepare l calls).toil ≤ l.toil + 5 * calls.length := by
  induction calls generalizing l with
  | nil => exact ⟨hl, Nat.le_refl _⟩
  | cons sc calls ih =>
    obtain ⟨s, c⟩ := sc
    obtain ⟨hsound, htoil⟩ := ih (hl.call s c)
    have hcall := hl.toil_call_le s c
    refine ⟨hsound, ?_⟩
    rw [List.length_cons]
    exact htoil.trans (by omega)

/-- **The rounds of a transfer are bounded,** whatever was called before the tasks take over. -/
theorem effort_le_maxRounds {config : Config} {a b : Link.Plan} {l : Link}
    (h : Link.create config a b = .ok l) (calls : List (Side × Call)) (j : Job) :
    effort { job := j, link := prepare l calls } ≤ maxRounds j calls := by
  obtain ⟨-, hle⟩ := toil_prepare_le (.of_create h) calls
  rw [Link.toil_of_create h] at hle
  unfold effort maxRounds stake Behaviour.budget WriterStats.cost Phase.turns
  dsimp only
  omega

/-- **A transfer ends where neither task can go on,** -/
theorem isOver_of_run {config : Config} {a b : Link.Plan} {calls : List (Side × Call)} {j : Job}
    {first : Role} (h : run config a b calls j first = .ok t) : t.IsOver := by
  unfold run at h
  split at h
  · cases h
  · next l hl =>
    cases h
    exact isOver_rounds first (toil_prepare_le (.of_create hl) calls).1
      (effort_le_maxRounds hl calls j)

/-- and more rounds than it allows for would change nothing. -/
theorem run_eq_rounds {config : Config} {a b : Link.Plan} {l : Link}
    (h : Link.create config a b = .ok l) (calls : List (Side × Call)) (j : Job) (first : Role)
    {n : Nat} (hn : maxRounds j calls ≤ n) :
    run config a b calls j first =
      .ok (rounds first n { job := j, link := prepare l calls }) := by
  have hover := isOver_rounds first (toil_prepare_le (.of_create h) calls).1
    (effort_le_maxRounds h calls j)
  obtain ⟨k, rfl⟩ := Nat.exists_eq_add_of_le hn
  rw [run, h, rounds_add, rounds_of_isOver hover]

end Transfer

end MessagePipe
