import MessagePipe.Proofs.Driving
import MessagePipe.Proofs.Toil
import MessagePipe.Transfer.Reader
import MessagePipe.Transfer.Writer

/-!
# What a turn of a task leaves to do

The tasks of a transfer (§11.5 of the specification) write, read, flush and take commands, and each
of these has its price in `Link.toil` (`Proofs/Toil`). Here the prices are added up along the code
of the tasks, so that a turn in which a command is taken leaves less to do.

* `Link.Spends`: calls of a side bring one link to another, and of what was granted for them
  something is left. It can be put together (`Spends.trans`, `Spends.frame`), as the code of a task
  is.
* `Spends.call`, `Spends.read`: a call of the writer costs its fee, and two for a message it
  completes; reading costs nothing.
* `spends_writeFrames`, `spends_writeMessage`, `spends_writeMessages`, `spends_concludeWriting`: so
  the parts of the writing task, each by the recursion of the function it is about. A message that
  is taken back costs nothing.
* `spends_writing`, `spends_readFrames`: the work of the two tasks costs a flush, and nothing.
* `Behaviour.Pays`: a task pays for what it does: its work costs a fee beyond what its account says,
  which the command that it takes before pays for. `pays_writing` and `pays_reading` say so of the
  two tasks.
* `Pays.listen`: a task that pays comes to rest where it finds no command, and every command it
  takes leaves less to do.
* `Pays.pollIfReady_le`, `Pays.pollIfReady_lt`: a task comes to rest whenever it is polled, with
  less left to do if it has not started or has a command to take.

Premise: a link that some sound pair follows (`Link.IsSound`). Nothing is asked of delay or sinks,
so a transfer that gets stuck is covered.

Out of scope: that the tasks do without a fault (`Proofs/Writing`, `Proofs/Reading`); here a fault
ends a task, and costs no more.
-/

namespace MessagePipe

namespace Link

/-! ## What calls cost -/

/-- What side `b` counts read was written. -/
theorem IsSound.took_le {l l' : Link} {st : Stimulus} {r : Reaction} {rep : Report}
    (h : l.IsSound) (ht : Took l .b st r rep l') :
    r.pipe.msgsRead ≤ (l.side .a).pipe.msgsWritten := by
  have hle : (l'.side .b).pipe.msgsRead ≤ (l'.side .a).pipe.msgsWritten :=
    (h.took ht).msgsRead_le .a
  rwa [ht.own, show (l'.side .a).pipe = (l.side .a).pipe from ht.peer] at hle

/-- Calls of side `s` bring `l` to `l'`; of the `k` that was granted for them, `k'` is left. -/
structure Spends (s : Side) (l : Link) (k : Nat) (l' : Link) (k' : Nat) : Prop where
  sound : l'.IsSound
  inbox : l'.commands s = l.commands s
  toil : l'.toil + k' ≤ l.toil + k

namespace Spends

variable {l l₁ l₂ : Link} {s : Side} {k k₁ k₂ : Nat}

theorem refl (h : l.IsSound) (s : Side) (k : Nat) : Spends s l k l k :=
  ⟨h, rfl, Nat.le_refl _⟩

theorem trans (h : Spends s l k l₁ k₁) (h' : Spends s l₁ k₁ l₂ k₂) : Spends s l k l₂ k₂ :=
  ⟨h'.sound, h'.inbox.trans h.inbox, h'.toil.trans h.toil⟩

/-- What is granted beyond is left. -/
theorem frame (h : Spends s l k l₁ k₁) (m : Nat) : Spends s l (m + k) l₁ (m + k₁) :=
  ⟨h.sound, h.inbox, by have := h.toil; omega⟩

theorem forfeit (h : Spends s l k l₁ k₁) : Spends s l k l₁ 0 :=
  ⟨h.sound, h.inbox, (Nat.le_add_right ..).trans h.toil⟩

/-- A call of the writer costs its fee, and two for a message it completes. -/
theorem call (h : l.IsSound) {c : Call} (hc : c.OfWriter (l.side .a).pipe) :
    Spends .a l (c.fee + 2 * messages (c.accepted (l.call .a c).1.result)) (l.call .a c).2 0 := by
  obtain ⟨r, ht⟩ := l.took_call .a c
  exact ⟨h.took ht, ht.inbox.symm, (ht.toil_call hc).trans_eq (Nat.add_assoc ..)⟩

/-- Reading costs nothing. -/
theorem read (h : l.IsSound) : Spends .b l 0 (l.call .b .read).2 0 := by
  obtain ⟨r, ht⟩ := l.took_call .b .read
  exact ⟨h.took ht, ht.inbox.symm, ht.toil_read (h.took_le ht)⟩

end Spends

theorem Alike.toil_eq {l l' : Link} (h : Alike l l') : l'.toil = l.toil := by
  rw [toil, toil, h.pipe, h.pipe, h.commands, h.commands]

/-- An entry in the log costs nothing. -/
theorem Spends.note {l : Link} (h : l.IsSound) (s : Side) (e : Entry) :
    Spends s l 0 (l.note e) 0 :=
  have ha := l.alike_note e
  ⟨h.alike ha, ha.commands s, ha.toil_eq.le⟩

/-- Who leaves, leaves no more to do. -/
theorem toil_leave (l : Link) (s : Side) : (l.leave s).toil ≤ l.toil := by
  have hself : (l.leave s).commands s = [] := by
    rw [commands, inbox_leave_self]
    rfl
  have hother : (l.leave s).commands s.other = l.commands s.other := by
    rw [commands, inbox_leave_other]
    rfl
  rw [toil, toil, pipe_leave, pipe_leave]
  cases s with
  | a =>
    rw [hself, show (l.leave .a).commands .b = l.commands .b from hother, toilOfAll_nil]
    omega
  | b =>
    rw [hself, show (l.leave .b).commands .a = l.commands .a from hother, toilOfAll_nil]
    omega

end Link

namespace Transfer

open Link (Spends)

/-! ## What the work of a task costs -/

variable {l : Link}

/-- Did a message come through? -/
def gained : Except Fault Bool → Nat
  | .ok true => 1
  | _ => 0

/-- A frame that is not accepted is the last one, and what was begun is taken back. -/
theorem writeFrames_of_not_accepted {j : Job} {n : Nat} {o : Link.Report × Link}
    (ho : l.call .a (.write ((Frame.ofBytes j.payload).setMore (0 < n))) = o)
    (hn : o.1.result ≠ .ok .accepted) :
    gained (writeFrames j (n + 1) l).1 = 0 ∧
      ((writeFrames j (n + 1) l).2 = o.2 ∨
        (writeFrames j (n + 1) l).2 = (o.2.call .a .rollback).2) := by
  obtain ⟨⟨result, effects⟩, l₁⟩ := o
  unfold writeFrames
  rw [ho]
  split
  · next heq =>
    cases heq
    exact absurd rfl hn
  · next heq =>
    cases heq
    constructor
    · split <;> rfl
    · refine .inr ?_
      split <;> next heq => rw [heq]
  · next heq =>
    cases heq
    exact ⟨rfl, .inl rfl⟩

/-- Frames cost what the message does that they complete. -/
theorem spends_writeFrames (j : Job) (n : Nat) (h : l.IsSound) :
    Spends .a l (2 * (min n 1 * gained (writeFrames j n l).1)) (writeFrames j n l).2 0 := by
  induction n generalizing l with
  | zero => exact .refl h ..
  | succ n ih =>
    have hcall := Spends.call h (.write ((Frame.ofBytes j.payload).setMore (0 < n)))
    rw [show Call.fee _ = 0 from rfl, Nat.zero_add] at hcall
    generalize ho : l.call .a _ = o at hcall
    by_cases hres : o.1.result = .ok .accepted
    · obtain ⟨⟨result, effects⟩, l₁⟩ := o
      obtain rfl : result = .ok .accepted := hres
      have hcost : messages [(Frame.ofBytes j.payload).setMore (0 < n)] = if 0 < n then 0 else 1 :=
        by rw [messages_singleton rfl, Frame.hasMore_setMore]; simp only [decide_eq_true_eq]
      replace hcall : Spends .a l (2 * messages [_]) l₁ 0 := hcall
      rw [hcost] at hcall
      rw [writeFrames, ho]
      cases n with
      | zero => exact hcall
      | succ n =>
        rw [if_pos (Nat.succ_pos n)] at hcall
        have hframes := ih hcall.sound
        rw [Nat.min_eq_right (Nat.le_add_left ..)] at hframes ⊢
        exact (hcall.frame _).trans hframes
    · have hnone :
          (Call.write ((Frame.ofBytes j.payload).setMore (0 < n))).accepted o.1.result = [] := by
        unfold Call.accepted
        split
        · next heq => exact absurd heq hres
        · rfl
      rw [hnone] at hcall
      obtain ⟨hgain, hl⟩ := writeFrames_of_not_accepted ho hres
      rw [hgain]
      rcases hl with hl | hl
      · rw [hl]
        exact hcall
      · rw [hl]
        exact hcall.trans (Spends.call hcall.sound .rollback)

/-- A message costs as much whether it is one frame or many. -/
theorem spends_writeMessage (j : Job) (h : l.IsSound) :
    Spends .a l (2 * gained (writeMessage j l).1) (writeMessage j l).2 0 := by
  have hcall := Spends.call h .checkWrite
  unfold writeMessage
  split
  · next heq =>
    rw [heq] at hcall
    have hframes := spends_writeFrames j j.frames hcall.sound
    rw [show min j.frames 1 = 1 from Nat.min_eq_right (Nat.le_max_right ..), Nat.one_mul] at hframes
    exact (hcall.frame _).trans hframes
  · next heq =>
    rw [heq] at hcall
    exact hcall
  · next heq =>
    rw [heq] at hcall
    exact hcall

/-- What is left over for a task that goes on, by what its account costs. -/
def leftover {σ : Type} (cost : σ → Nat) : Except Fault σ → Nat
  | .ok stats => cost stats
  | .error _ => 0

/-- The writing task has two to spend for every message that is not written. -/
def WriterStats.cost (j : Job) (stats : WriterStats) : Nat :=
  2 * (j.messages - stats.messages)

theorem spends_writeMessages (j : Job) (n : Nat) (stats : WriterStats)
    (hn : j.messages - stats.messages = n) (h : l.IsSound) :
    Spends .a l (stats.cost j) (writeMessages j n stats l).2
      (leftover (WriterStats.cost j) (writeMessages j n stats l).1) := by
  induction n generalizing stats l with
  | zero => exact .refl h ..
  | succ n ih =>
    have hmessage := spends_writeMessage j h
    unfold writeMessages
    split
    · next heq =>
      rw [heq] at hmessage
      have hrest := ih { stats with
        messages := stats.messages + 1
        bytes := stats.bytes + j.payload.size * j.frames } (by dsimp only; omega) hmessage.sound
      have hcost : stats.cost j = 2 * (j.messages - (stats.messages + 1)) + 2 := by
        rw [WriterStats.cost]
        omega
      rw [hcost]
      exact (hmessage.frame _).trans hrest
    · next heq =>
      rw [heq] at hmessage
      exact hmessage.frame _
    · next heq =>
      rw [heq] at hmessage
      exact (hmessage.frame _).forfeit

/-- To conclude costs a flush. -/
theorem spends_concludeWriting (j : Job) (stats : WriterStats) (h : l.IsSound) :
    Spends .a l (stats.cost j + 1) (concludeWriting j stats l).2
      (leftover (WriterStats.cost j) (concludeWriting j stats l).1) := by
  have hflush := (Spends.call h .flush).frame (stats.cost j)
  unfold concludeWriting
  dsimp only
  generalize (l.call .a .flush).2 = l₁ at hflush ⊢
  by_cases hm : stats.messages = j.messages
  · rw [if_pos hm]
    by_cases hs : (l₁.side .a).pipe.state = .active
    · rw [if_pos hs]
      have hnote := (Spends.note hflush.sound .a (.done stats.messages)).frame (stats.cost j)
      have hend := (Spends.call hnote.sound (.terminate true (by rw [Link.side_note, hs]))).frame
        (stats.cost j)
      have hspent := (hflush.trans hnote).trans hend
      split
      · next heq =>
        rw [heq] at hspent
        exact hspent
      · next heq =>
        rw [heq] at hspent
        exact hspent.forfeit
    · rw [if_neg hs]
      exact hflush
  · rw [if_neg hm]
    exact hflush

/-- **The work of the writing task costs a flush,** and two for every message it writes. -/
theorem spends_writing (j : Job) (stats : WriterStats) (h : l.IsSound) :
    Spends .a l (stats.cost j + 1) ((writing j).work stats l).2
      (leftover (WriterStats.cost j) ((writing j).work stats l).1) := by
  have hmessages := (spends_writeMessages j _ stats rfl h).frame 1
  rw [Nat.add_comm 1, Nat.add_comm 1] at hmessages
  dsimp only [writing]
  split
  · next heq =>
    rw [heq] at hmessages
    exact hmessages.forfeit
  · next heq =>
    rw [heq] at hmessages
    exact hmessages.trans (spends_concludeWriting j _ hmessages.sound)

/-- **The work of the reading task costs nothing.** -/
theorem spends_readFrames (n : Nat) (stats : ReaderStats) (h : l.IsSound) :
    Spends .b l 0 (readFrames n stats l).2 0 := by
  induction n generalizing stats l with
  | zero => exact .refl h ..
  | succ n ih =>
    have hread := Spends.read h
    unfold readFrames
    split
    · next heq =>
      rw [heq] at hread
      exact hread.trans (ih _ hread.sound)
    · next heq =>
      rw [heq] at hread
      exact hread
    · next heq =>
      rw [heq] at hread
      exact hread

namespace Behaviour

/-! ## What a turn of a task costs -/

variable {σ : Type} {β : Behaviour σ} {cost : σ → Nat} {fee : Nat}

/-- A task pays for what it does: its work costs a fee beyond what its account says, which the
command that it takes before pays for. -/
structure Pays (β : Behaviour σ) (cost : σ → Nat) (fee : Nat) : Prop where
  work : ∀ {l : Link} (stats : σ), l.IsSound →
    Spends β.side l (cost stats + fee) (β.work stats l).2 (leftover cost (β.work stats l).1)
  take : ∀ {l l' : Link} {c : Command} {r : Reaction} {rep : Link.Report}, l.IsSound →
    Link.Took l β.side (.command c) r rep l' → l'.toil + fee + 1 ≤ l.toil
  hear : ∀ stats e, cost (β.hear stats e) = cost stats

/-- What a task has left to spend. -/
def budget (cost : σ → Nat) (fee : Nat) (t : Task σ) : Nat :=
  match t.phase with
  | .unstarted => cost t.stats + fee + 1
  | .waiting => cost t.stats
  | .finished | .failed _ => 0

/-- A task has to wait, or has ended, and less than `m` is left to do. -/
structure Rests (β : Behaviour σ) (cost : σ → Nat) (fee m : Nat) (o : Task σ × Link) : Prop where
  sound : o.2.IsSound
  rest : β.isReady o.1 o.2 = false
  toil : o.2.toil + budget cost fee o.1 < m

/-- A task that has ended has nothing left to spend. -/
theorem Rests.finish {l : Link} {m : Nat} (h : l.IsSound) (hm : l.toil < m) (stats : σ)
    {phase : Phase} (hp : phase = .finished ∨ ∃ fault, phase = .failed fault) :
    β.Rests cost fee m (β.finish phase stats l) := by
  have hlt := (l.toil_leave β.side).trans_lt hm
  rcases hp with rfl | ⟨fault, rfl⟩
  · exact ⟨h.leave _, rfl, hlt⟩
  · exact ⟨h.leave _, rfl, hlt⟩

/-- A task that finds no command waits for one, or finds its mailbox at its end. -/
theorem Rests.listen_of_nil {l : Link} (hl : l.IsSound) (hc : l.commands β.side = []) {stats : σ}
    {m : Nat} (hm : l.toil + cost stats < m) (fuel : Nat) :
    β.Rests cost fee m (β.listen (fuel + 1) stats l) := by
  obtain ⟨found, hr, hfound⟩ := Link.receive_nil hc
  rw [Behaviour.listen, hr]
  cases found with
  | envelope e => exact absurd rfl (hfound e)
  | nothingYet =>
    have hnone : (l.side β.side).inbox.receive.1 = .nothingYet := congrArg Prod.fst hr
    refine ⟨hl, ?_, hm⟩
    unfold isReady
    dsimp only
    rw [hnone]
  | ended =>
    have ha := l.alike_note (.cutOff β.role)
    exact .finish (hl.alike ha) (by rw [ha.toil_eq]; omega) stats (.inl rfl)

namespace Pays

variable {l : Link} {m : Nat}

theorem foldl_hear (h : β.Pays cost fee) (es : List Event) (stats : σ) :
    cost (es.foldl β.hear stats) = cost stats := by
  induction es generalizing stats with
  | nil => rfl
  | cons e es ih => rw [List.foldl_cons, ih, h.hear]

/-- A task works and goes on, or a fault ends it. -/
theorem work_next (h : β.Pays cost fee) (hl : l.IsSound) {stats : σ}
    (hm : l.toil + (cost stats + fee) < m) {next : σ → Link → Task σ × Link}
    (hnext : ∀ stats' l', l'.IsSound → l'.commands β.side = l.commands β.side →
      l'.toil + cost stats' < m → β.Rests cost fee m (next stats' l')) :
    β.Rests cost fee m (match β.work stats l with
      | (.error fault, l) => β.finish (.failed fault) stats l
      | (.ok stats, l) => next stats l) := by
  obtain ⟨hsound, hinbox, htoil⟩ := h.work stats hl
  generalize β.work stats l = o at hsound hinbox htoil ⊢
  obtain ⟨result, l'⟩ := o
  cases result with
  | error fault => exact .finish hsound (htoil.trans_lt hm) stats (.inr ⟨fault, rfl⟩)
  | ok stats' => exact hnext stats' l' hsound hinbox (htoil.trans_lt hm)

/-- **A task that pays comes to rest where it finds no command,** and every command it takes leaves
less to do. -/
theorem listen (h : β.Pays cost fee) (hl : l.IsSound) {stats : σ} {fuel : Nat}
    (hf : (l.commands β.side).length < fuel)
    (hm : l.toil + cost stats < m + if l.commands β.side = [] then 0 else 1) :
    β.Rests cost fee m (β.listen fuel stats l) := by
  induction fuel generalizing l stats with
  | zero => exact absurd hf (Nat.not_lt_zero _)
  | succ fuel ih =>
    cases hc : l.commands β.side with
    | nil =>
      rw [hc, if_pos rfl] at hm
      exact .listen_of_nil hl hc hm fuel
    | cons c left =>
      rw [hc, if_neg (List.cons_ne_nil c left)] at hm
      rw [hc, List.length_cons] at hf
      obtain ⟨r, ht⟩ := Link.took_deliver hc
      have hpaid := h.take hl ht
      have hsound := hl.took ht
      have hleft : (l.step (.deliver β.side)).2.commands β.side = left :=
        (List.cons.inj (hc.symm.trans ht.inbox)).2.symm
      rw [β.listen_cons hc]
      generalize l.step (.deliver β.side) = o at hpaid hsound hleft ⊢
      cases o.1.result with
      | error fault => exact .finish hsound (by omega) stats (.inr ⟨fault, rfl⟩)
      | ok reply =>
        have ha := β.alike_told o.2
        have hheard := h.foldl_hear (o.2.side β.side).events stats
        have htoil := ha.toil_eq
        dsimp only
        unfold goOn
        dsimp only
        split
        · exact .finish (hsound.alike ha) (by omega) _ (.inl rfl)
        · refine h.work_next (hsound.alike ha) (by omega) fun stats' l' hl' hinbox hlt => ?_
          rw [ha.commands, hleft] at hinbox
          exact ih hl' (by rw [hinbox]; omega) (Nat.lt_add_right _ hlt)

theorem pollIfReady (h : β.Pays cost fee) (hl : l.IsSound) {t : Task σ}
    (hm : l.toil + budget cost fee t < m + 1)
    (hn : ¬ (t.phase = .unstarted ∨ t.phase = .waiting ∧ l.commands β.side ≠ []) →
      l.toil + budget cost fee t < m) :
    β.Rests cost fee m (β.pollIfReady t l) := by
  unfold Behaviour.pollIfReady
  by_cases hr : β.isReady t l = true
  · rw [if_pos hr]
    unfold Behaviour.poll
    unfold budget at hm hn
    cases hp : t.phase with
    | unstarted =>
      rw [hp] at hm
      dsimp only at hm
      refine h.work_next hl (by omega) fun stats' l' hl' _ hlt => ?_
      exact h.listen hl' (β.length_lt_patience l') (Nat.lt_add_right _ hlt)
    | waiting =>
      rw [hp] at hm hn
      refine h.listen hl (β.length_lt_patience l) ?_
      split
      · next hc => exact hn fun hgo => (hgo.resolve_left nofun).2 hc
      · exact hm
    | finished =>
      rw [isReady, hp] at hr
      cases hr
    | failed fault =>
      rw [isReady, hp] at hr
      cases hr
  · rw [if_neg hr]
    exact ⟨hl, Bool.eq_false_iff.2 hr, hn fun hgo => hr (isReady_of_commands hgo)⟩

/-- **A task comes to rest whenever it is polled,** -/
theorem pollIfReady_le (h : β.Pays cost fee) (hl : l.IsSound) (t : Task σ) :
    β.Rests cost fee (l.toil + budget cost fee t + 1) (β.pollIfReady t l) :=
  h.pollIfReady hl (Nat.lt_succ_of_lt (Nat.lt_succ_self _)) fun _ => Nat.lt_succ_self _

/-- with less left to do if it has not started or has a command to take. -/
theorem pollIfReady_lt (h : β.Pays cost fee) (hl : l.IsSound) {t : Task σ}
    (hgo : t.phase = .unstarted ∨ t.phase = .waiting ∧ l.commands β.side ≠ []) :
    β.Rests cost fee (l.toil + budget cost fee t) (β.pollIfReady t l) :=
  h.pollIfReady hl (Nat.lt_succ_self _) fun hn => absurd hgo hn

end Pays

end Behaviour

/-- **The writing task pays:** every command it takes pays for the flush that follows. -/
theorem pays_writing (j : Job) : (writing j).Pays (WriterStats.cost j) 1 where
  work stats hl := spends_writing j stats hl
  take _ ht := ht.toil_command_a
  hear _ _ := rfl

/-- **The reading task pays,** for it has no fee. -/
theorem pays_reading : reading.Pays (fun _ => 0) 0 where
  work {l} stats hl := by
    have hnone : ∀ o, leftover (fun _ : ReaderStats => 0) o = 0 := fun o => by cases o <;> rfl
    rw [hnone]
    exact spends_readFrames (readable l) stats hl
  take hl ht := ht.toil_command_b (hl.took_le ht)
  hear _ _ := rfl

end Transfer

end MessagePipe
