import MessagePipe.Link

/-!
# Who makes which entry in the log

What tasks report of themselves is not reported by endpoints: no call and no command makes an entry
that belongs to a task (`Entry.ofTask`: an event that a task took, the end of its work, and that its
mailbox ended early). So these entries tell what tasks did, and nothing else.

It is what lets `Proofs/Completion` read off the log that no task was cut off: the one function that
makes the entry is `Behaviour.listen`, and this module says that everything else makes none.

* `Turn.Plain`: no entry of a turn is a task's. Every part of every operation keeps a turn plain;
  the lemmas go along the operations, from `note` and `post` to `perform` and `process`.
* `Turn.plain_perform`, `Turn.plain_process`: so do the turns of an endpoint.
* `Surroundings.tasked_applyAll`: the entries that come with doing an effect are none of a task's
  either.
* `Link.tasked_call`, `Link.tasked_process`: and so it is of a pair, whose log has the same entries
  of tasks after a call as before (`Log.tasked`).
-/

namespace MessagePipe

/-- Is an entry made by a task, and not by an endpoint? -/
def Entry.ofTask : Entry → Bool
  | taken .. | done _ | cutOff _ => true
  | _ => false

namespace Turn

/-- A turn that made no entry of a task. -/
def Plain (t : Turn) : Prop :=
  ∀ entry, .note entry ∈ t.effects → entry.ofTask = false

variable {t : Turn}

@[simp] theorem plain_withPipe {p : Pipe} : (t.withPipe p).Plain ↔ t.Plain := Iff.rfl

@[simp] theorem plain_putQueue {id : QueueId} {q : Queue Frame} :
    (t.putQueue id q).Plain ↔ t.Plain := Iff.rfl

@[simp] theorem plain_note {entry : Entry} :
    (t.note entry).Plain ↔ t.Plain ∧ entry.ofTask = false := by
  simp only [Plain, effects_note, List.mem_append, List.mem_singleton, Effect.note.injEq]
  exact ⟨fun h => ⟨fun e he => h e (.inl he), h entry (.inr rfl)⟩,
    fun h e he => he.elim (h.1 e) fun he => he ▸ h.2⟩

@[simp] theorem plain_post {c : Command} : (t.post c).Plain ↔ t.Plain := by
  simp [Plain]

@[simp] theorem plain_notify {e : Event} : (t.notify e).Plain ↔ t.Plain := by
  simp [Plain]

theorem plain_enter (h : t.Plain) (s : State) (sg : Signal) : (t.enter s sg).Plain := by
  unfold enter
  split
  · exact h
  · simpa using ⟨h, rfl⟩

theorem plain_act (h : t.Plain) (a : Action) : (t.act a).Plain := by
  cases a with
  | deallocate ack => cases ack <;> simpa [act, releaseAndAck] using h
  | _ => simpa [act, releaseAndAck] using h

theorem plain_transition (h : t.Plain) (sg : Signal) : (t.transition sg).turn.Plain := by
  unfold transition
  split
  · exact h
  · exact plain_act (plain_enter h _ _) _

theorem plain_checkRead (h : t.Plain) : t.checkRead.turn.Plain := by
  unfold checkRead
  split
  · split
    · exact h
    · split
      · exact h
      · split
        · exact h
        · split
          · split
            · exact h
            · exact plain_transition (plain_putQueue.2 h) _
          · exact h
  · exact h

theorem plain_countRead (h : t.Plain) (f : Frame) : (t.countRead f).Plain := by
  unfold countRead
  split
  · exact h
  · dsimp only
    split <;> simpa using h

theorem plain_read (h : t.Plain) : t.read.turn.Plain := by
  unfold read
  split
  · split
    · exact h
    · split
      · exact h
      · split
        · exact plain_transition (plain_putQueue.2 h) _
        · exact plain_countRead (plain_putQueue.2 h) _
  · exact h

theorem plain_checkWrite (h : t.Plain) : t.checkWrite.2.Plain := by
  unfold checkWrite
  split
  · split
    · exact h
    · exact h
  · exact h

theorem plain_write (h : t.Plain) (f : Frame) : (t.write f).turn.Plain := by
  have hc := plain_checkWrite h
  unfold write
  split
  · exact h
  · split
    · next he => rw [he] at hc; exact hc
    · next he =>
      rw [he] at hc
      split
      · exact hc
      · show (countWritten _ f).Plain
        unfold countWritten
        split <;> exact hc

theorem plain_flush (h : t.Plain) : t.flush.Plain := by
  unfold flush
  split
  · exact h
  · split
    · exact h
    · split
      · exact h
      · exact plain_post.2 h

theorem plain_rollback (h : t.Plain) : t.rollback.turn.Plain := by
  unfold rollback
  split
  · exact h
  · dsimp only
    split
    · split
      · exact h
      · simpa [answer] using ⟨h, rfl⟩
    · exact h

theorem plain_andThen {α β : Type} {o : Outcome α} {f : α → Turn → Outcome β}
    (h : o.turn.Plain) (hf : ∀ a u, u.Plain → (f a u).turn.Plain) : (o.andThen f).turn.Plain := by
  unfold Outcome.andThen
  split
  · exact hf _ _ h
  · exact h

theorem plain_endStream (h : t.Plain) : t.endStream.Plain := by
  unfold endStream
  split
  · exact h
  · exact plain_flush (plain_putQueue.2 h)

theorem plain_terminate (h : t.Plain) (d : Bool) : (t.terminate d).turn.Plain := by
  refine plain_andThen (plain_transition (plain_withPipe.2 h) _) fun a u hu => ?_
  cases a with
  | ignore => exact hu
  | _ =>
    exact plain_andThen (plain_rollback (plain_withPipe.2 hu)) fun _ w hw => plain_endStream hw

theorem plain_deallocate (h : t.Plain) : t.deallocate.Plain := by
  unfold deallocate
  split
  · exact h
  · simpa using ⟨h, rfl⟩

theorem plain_hiccup (h : t.Plain) : t.hiccup.Plain := by
  unfold hiccup
  split
  · split
    · exact h
    · simpa using ⟨h, rfl⟩
  · exact h

theorem plain_processHiccup (h : t.Plain) (writer retired : QueueId) :
    (t.processHiccup writer retired).Plain := by
  unfold processHiccup
  split
  · simpa using ⟨h, rfl⟩
  · next old _ =>
    have hf : ∀ p, ((t.moveStream old writer retired).2.withPipe p).flush.Plain :=
      fun p => plain_flush h
    dsimp only
    split
    · simpa using ⟨hf _, rfl⟩
    · simpa using ⟨hf _, rfl⟩

/-- **No call makes an entry of a task.** -/
theorem plain_perform (h : t.Plain) (c : Call) : (t.perform c).turn.Plain := by
  cases c with
  | write f => exact plain_write h f
  | read => exact plain_read h
  | checkRead => exact plain_checkRead h
  | checkWrite => exact plain_checkWrite h
  | flush => exact plain_flush h
  | rollback => exact plain_rollback h
  | hiccup => exact plain_hiccup h
  | terminate d => exact plain_terminate h d

/-- **No command makes an entry of a task.** -/
theorem plain_process (h : t.Plain) (c : Command) : (t.process c).turn.Plain := by
  have hn : (t.note (.received t.pipe.id t.pipe.peer c.name)).Plain := plain_note.2 ⟨h, rfl⟩
  unfold process
  generalize t.note (.received t.pipe.id t.pipe.peer c.name) = t at hn
  cases c with
  | pipeTerm => exact plain_transition hn _
  | pipeTermAck =>
    show (processPipeTermAck t).turn.Plain
    unfold processPipeTermAck
    split
    · exact hn
    · have ht := plain_transition hn .peerTermAck
      exact plain_andThen ht fun _ u hu => plain_deallocate (plain_notify.2 hu)
  | activateRead =>
    show (processActivateRead t).Plain
    unfold processActivateRead
    split <;> simpa using hn
  | activateWrite n =>
    show (processActivateWrite t n).Plain
    unfold processActivateWrite
    split <;> simpa using hn
  | hiccup w r => exact plain_processHiccup hn w r

end Turn

/-! ## The log of a pair -/

/-- The entries tasks made, in order. -/
def Log.tasked (log : Log) : List Entry :=
  log.toList.filter Entry.ofTask

theorem Log.tasked_push (log : Log) (e : Entry) :
    Log.tasked (log.push e) = Log.tasked log ++ if e.ofTask then [e] else [] := by
  rw [tasked, Chain.toList_push, List.filter_append]
  cases he : e.ofTask <;> simp [tasked, he]

theorem Surroundings.tasked_apply (s : Surroundings) (p : Pipe) {e : Effect}
    (h : ∀ entry, e = .note entry → entry.ofTask = false) :
    (apply p s e).log.tasked = s.log.tasked := by
  have hn : ∀ (log : Log) {entry : Entry}, entry.ofTask = false →
      Log.tasked (log.push entry) = log.tasked := fun log entry he => by
    rw [Log.tasked_push, he]
    exact List.append_nil _
  cases e with
  | note entry => exact hn _ (h entry rfl)
  | post c =>
    cases hr : s.mailbox.receiving with
    | true =>
      simp only [apply, post, Mailbox.send, note, hr, if_true]
      exact hn _ rfl
    | false =>
      simp only [apply, post, Mailbox.send, note, hr, Bool.false_eq_true, if_false]
      exact (hn _ rfl).trans (hn _ rfl)
  | notify e =>
    simp only [apply, notify, note]
    split
    · exact hn _ rfl
    · split
      · split
        · rfl
        · split
          · exact hn _ rfl
          · rfl
      · rfl

theorem Surroundings.tasked_applyAll (s : Surroundings) (p : Pipe) {es : List Effect}
    (h : ∀ entry, .note entry ∈ es → entry.ofTask = false) :
    (s.applyAll p es).log.tasked = s.log.tasked := by
  induction es generalizing s with
  | nil => rfl
  | cons e es ih =>
    rw [applyAll_cons, ih _ fun entry he => h entry (List.mem_cons_of_mem _ he)]
    exact tasked_apply s p fun entry he => h entry (he ▸ List.mem_cons_self)

namespace Link

theorem tasked_settle (l : Link) (s : Side) {t : Turn} (h : t.Plain) :
    (l.settle s t).log.tasked = l.log.tasked := by
  have := Surroundings.tasked_applyAll
    { mailbox := (l.side s.other).inbox, listening := (l.side s).listening,
      events := (l.side s).events, log := l.log } t.pipe h
  cases s <;> exact this

theorem plain_turn (l : Link) (s : Side) : (l.turn s).Plain :=
  fun _ h => absurd h List.not_mem_nil

theorem tasked_call (l : Link) (s : Side) (c : Call) :
    (l.call s c).2.log.tasked = l.log.tasked :=
  l.tasked_settle s (Turn.plain_perform (l.plain_turn s) c)

theorem tasked_process (l : Link) (s : Side) (c : Command) :
    (l.process s c).2.log.tasked = l.log.tasked :=
  l.tasked_settle s (Turn.plain_process (l.plain_turn s) c)

end Link

end MessagePipe
