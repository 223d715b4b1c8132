import MessagePipe.Proofs.Reaction

/-!
# Turns react as listed

Every operation of a turn (`Pipe/Flow`, `Pipe/Termination`, `Pipe/Hiccup`, `Pipe/Process`) is
followed through its parts, with `Turn.Went` saying where the turn stands: the endpoint and the
queues by then, and what was sent, notified and taken back. It is the symbolic execution of §4.2 and
§4.3 of the specification, done once.

* `Went.withPipe`, `putQueue`, `post`, `notify`, `note`: the five elementary changes of a turn, of
  which all others are made.
* `Went.enter`, `Went.act`, `Went.signal`: a signal of the handshake changes the state, and may give
  the outbound queue up. `transition_of_on` and `transition_of_none` say what `transition` comes to
  by the table.
* `Went.flush`, `went_rollback`, `went_endStream`, `went_countRead`, `went_countWritten`,
  `went_deallocate`, `went_moveStream`: the parts that several operations share. A rollback that
  finds a fragment without the *more* flag ends in a fault, and leaves the queue as it is by then
  (`went_rollback_fault`).
* `reacts_write`, `reacts_read`, `reacts_terminate` and so on: one lemma for each operation, split
  as the operation is.
* `Turn.reacts_perform`: every call is one of the reactions of `Reacts`.
* `Turn.reacts_process`: so is every command that is taken, and `Turn.reacts_obey` one that was not
  logged as received.

Nothing after this module opens an operation of a turn, but where its entries in the log matter
(`Proofs/Entries`) or its exact result (`Proofs/Looking`, `Proofs/Breaches`).

Premise: a turn that has done nothing before (`Turn.Quiet`), as every call finds it.

Out of scope: whether what was sent arrives; that is `Surroundings`.
-/

namespace MessagePipe

open Function (update)

/-- An endpoint that looks for frames can take a delimiter. -/
theorem Pipe.on_delimiterRead_of_mayRead (p : Pipe) (h : p.mayRead = true) :
    ∃ s a, p.state.on .delimiterRead = some (s, a) := by
  have hr : p.state.isReadable = true := (Bool.and_eq_true_iff.1 h).2
  rw [← State.on_delimiterRead_isSome] at hr
  obtain ⟨⟨s, a⟩, hon⟩ := Option.isSome_iff_exists.1 hr
  exact ⟨s, a, hon⟩

theorem Effect.takenBack_append (xs ys : List Effect) :
    takenBack (xs ++ ys) = takenBack xs + takenBack ys := by
  induction xs with
  | nil => simp [takenBack]
  | cons x xs ih => simp only [List.cons_append, takenBack, ih, Nat.add_assoc]

namespace Turn

section Elementary

variable (t : Turn) (p : Pipe) (id : QueueId) (q : Queue Frame) (e : Entry) (c : Command)
  (ev : Event)

@[simp] theorem view_withPipe : (t.withPipe p).view = t.view := rfl
@[simp] theorem view_putQueue : (t.putQueue id q).view = update t.view id q.segments :=
  Queues.view_set ..
@[simp] theorem view_note : (t.note e).view = t.view := rfl
@[simp] theorem view_post : (t.post c).view = t.view := rfl
@[simp] theorem view_notify : (t.notify ev).view = t.view := rfl

@[simp] theorem posted_withPipe : (t.withPipe p).posted = t.posted := rfl
@[simp] theorem posted_putQueue : (t.putQueue id q).posted = t.posted := rfl
@[simp] theorem posted_note : (t.note e).posted = t.posted := by
  simp [posted, Effect.commands]
@[simp] theorem posted_post : (t.post c).posted = t.posted ++ [c] := by
  simp [posted, Effect.commands]
@[simp] theorem posted_notify : (t.notify ev).posted = t.posted := by
  simp [posted, Effect.commands]

@[simp] theorem events_withPipe : (t.withPipe p).events = t.events := rfl
@[simp] theorem events_putQueue : (t.putQueue id q).events = t.events := rfl
@[simp] theorem events_note : (t.note e).events = t.events := by
  simp [events, Effect.events]
@[simp] theorem events_post : (t.post c).events = t.events := by
  simp [events, Effect.events]
@[simp] theorem events_notify : (t.notify ev).events = t.events ++ [ev] := by
  simp [events, Effect.events]

@[simp] theorem takenBack_withPipe : (t.withPipe p).takenBack = t.takenBack := rfl
@[simp] theorem takenBack_putQueue : (t.putQueue id q).takenBack = t.takenBack := rfl
@[simp] theorem takenBack_note : (t.note e).takenBack = t.takenBack + (Effect.note e).frames := by
  simp [takenBack, Effect.takenBack_append, Effect.takenBack]
@[simp] theorem takenBack_post : (t.post c).takenBack = t.takenBack := by
  simp [takenBack, Effect.takenBack_append, Effect.takenBack, Effect.frames]
@[simp] theorem takenBack_notify : (t.notify ev).takenBack = t.takenBack := by
  simp [takenBack, Effect.takenBack_append, Effect.takenBack, Effect.frames]

end Elementary

/-- Nothing was sent, notified or taken back so far. -/
structure Quiet (t : Turn) : Prop where
  posted : t.posted = []
  events : t.events = []
  takenBack : t.takenBack = 0

/-- The turn `t` went on to `t'`: the endpoint and the queues as they are then, and what was sent,
notified and taken back on the way. -/
structure Went (t t' : Turn) (p : Pipe) (v : View) (cs : List Command := [])
    (es : List Event := []) (n : Nat := 0) : Prop where
  pipe : t'.pipe = p
  view : t'.view = v
  posted : t'.posted = t.posted ++ cs
  events : t'.events = t.events ++ es
  takenBack : t'.takenBack = t.takenBack + n

variable {t t' : Turn} {p : Pipe} {v : View} {cs : List Command} {es : List Event} {n : Nat}

/-- The reaction of a call that found a quiet turn. -/
theorem Went.reaction {o : Outcome Reply} (h : Went t o.turn p v cs es n) (hq : t.Quiet) :
    o.reaction = { result := o.result, pipe := p, view := v, posted := cs, events := es,
                   takenBack := n } := by
  rw [Outcome.reaction, h.pipe, h.view, h.posted, h.events, h.takenBack, hq.posted, hq.events,
    hq.takenBack, List.nil_append, List.nil_append, Nat.zero_add]

/-! ### The parts of operations -/

/-- A turn after a signal of the handshake led to a state and an action. -/
def signalled (t : Turn) (s : State) (signal : Signal) (a : Action) : Turn :=
  (t.enter s signal).act a

theorem transition_of_on (t : Turn) {signal : Signal} {s : State} {a : Action}
    (h : t.pipe.state.on signal = some (s, a)) :
    t.transition signal = (t.signalled s signal a).answer a := by
  unfold transition
  rw [h]
  rfl

theorem transition_of_none (t : Turn) {signal : Signal} (h : t.pipe.state.on signal = none) :
    t.transition signal = t.fail (.protocolViolation signal t.pipe.state) := by
  unfold transition
  rw [h]

theorem went_self (t : Turn) : Went t t t.pipe t.view :=
  ⟨rfl, rfl, by simp, by simp, rfl⟩

namespace Went

theorem segments (h : Went t t' p v cs es n) (id : QueueId) :
    (t'.queues.get id).segments = v id :=
  congrFun h.view id

theorem withPipe (h : Went t t' p v cs es n) (p' : Pipe) :
    Went t (t'.withPipe p') p' v cs es n :=
  ⟨rfl, h.view, by simp [h.posted], by simp [h.events], by simp [h.takenBack]⟩

theorem putQueue (h : Went t t' p v cs es n) (id : QueueId) (q : Queue Frame) :
    Went t (t'.putQueue id q) p (update v id q.segments) cs es n :=
  ⟨h.pipe, by simp [h.view], by simp [h.posted], by simp [h.events], by simp [h.takenBack]⟩

theorem post (h : Went t t' p v cs es n) (c : Command) :
    Went t (t'.post c) p v (cs ++ [c]) es n :=
  ⟨h.pipe, h.view, by simp [h.posted], by simp [h.events], by simp [h.takenBack]⟩

theorem notify (h : Went t t' p v cs es n) (e : Event) :
    Went t (t'.notify e) p v cs (es ++ [e]) n :=
  ⟨h.pipe, h.view, by simp [h.posted], by simp [h.events], by simp [h.takenBack]⟩

theorem note (h : Went t t' p v cs es n) (e : Entry) :
    Went t (t'.note e) p v cs es (n + (Effect.note e).frames) :=
  ⟨h.pipe, h.view, by simp [h.posted], by simp [h.events],
    by simp [h.takenBack, Nat.add_assoc]⟩

theorem enter (h : Went t t' p v cs es n) (s : State) (signal : Signal) :
    Went t (t'.enter s signal) { p with state := s } v cs es n := by
  have hp := pipe_enter t' s signal
  rw [h.pipe] at hp
  refine ⟨hp, ?_, by simp [h.posted], by simp [h.events], ?_⟩
  · rw [Turn.view, queues_enter]
    exact h.view
  · rw [← h.takenBack]
    unfold Turn.enter
    split
    · rfl
    · simp [Effect.frames]

theorem act (h : Went t t' p v cs es n) (a : Action) :
    Went t (t'.act a) { p with outbound := if a.releases then none else p.outbound } v
      (cs ++ a.commands) es n := by
  have hr : Went t t'.releaseAndAck { p with outbound := none } v (cs ++ [.pipeTermAck]) es n := by
    unfold releaseAndAck
    rw [h.pipe]
    exact (h.withPipe _).post .pipeTermAck
  have hn : Went t t' p v (cs ++ []) es n := by rwa [List.append_nil]
  cases a with
  | none => exact hn
  | ignore => exact hn
  | sendTerm => exact h.post .pipeTerm
  | releaseAndAck => exact hr
  | deallocate ack =>
    cases ack with
    | true => exact hr
    | false => exact hn

/-- A signal of the handshake changes the state, and may give the outbound queue up. -/
theorem signal (h : Went t t' p v cs es n) (s : State) (signal : Signal) (a : Action) :
    Went t (t'.signalled s signal a) (p.signalled s a) v (cs ++ a.commands) es n :=
  (h.enter s signal).act a

theorem flush (h : Went t t' p v cs es n) {id : QueueId} (hs : p.state ≠ .terminating)
    (hq : p.outbound = some id) :
    Went t t'.flush p (update v id (v id).flush.2) (cs ++ (v id).wake) es n := by
  obtain ⟨h1, h2⟩ := Queue.segments_flush (t'.queues.get id)
  rw [h.segments] at h1 h2
  unfold Turn.flush Segments.wake
  rw [h.pipe, if_neg hs, hq, ← h2, ← h1]
  dsimp only
  split
  · next q he =>
    rw [he, if_neg Bool.false_ne_true, List.append_nil]
    exact h.putQueue id q
  · next q he =>
    rw [he, if_pos rfl]
    exact (h.putQueue id q).post _

end Went

theorem flush_of_none {t : Turn} (h : t.pipe.state = .terminating ∨ t.pipe.outbound = none) :
    t.flush = t := by
  unfold flush
  rcases h with h | h
  · rw [if_pos h]
  · split
    · rfl
    · rw [h]

/-! ### The calls -/

theorem checkWrite_cases (t : Turn) :
    (t.pipe.outActive = true ∧ t.pipe.state = .active ∧ t.pipe.isFull = false ∧
        t.checkWrite = (true, t)) ∨
      ((t.pipe.outActive = false ∨ t.pipe.state ≠ .active) ∧ t.checkWrite = (false, t)) ∨
      (t.pipe.outActive = true ∧ t.pipe.state = .active ∧ t.pipe.isFull = true ∧
        t.checkWrite = (false, t.withPipe { t.pipe with outActive := false })) := by
  unfold checkWrite
  by_cases h : (t.pipe.outActive && t.pipe.state == .active) = true
  · obtain ⟨ho, hs⟩ : t.pipe.outActive = true ∧ t.pipe.state = .active := by simpa using h
    rw [if_pos h]
    cases hf : t.pipe.isFull with
    | true => exact .inr (.inr ⟨ho, hs, rfl, rfl⟩)
    | false => exact .inl ⟨ho, hs, rfl, rfl⟩
  · rw [if_neg h]
    refine .inr (.inl ⟨?_, rfl⟩)
    by_cases ho : t.pipe.outActive = true
    · exact .inr fun hs => h (by simp [ho, hs])
    · exact .inl (by simpa using ho)

theorem went_countWritten {t' : Turn} (h : Went t t' p v cs es n) (f : Frame) :
    Went t (t'.countWritten f)
      { p with msgsWritten := p.msgsWritten + if f.hasMore then 0 else 1 } v cs es n := by
  unfold countWritten
  split
  · exact h
  · rw [h.pipe]
    exact h.withPipe _

theorem went_countRead {t' : Turn} (h : Went t t' p v cs es n) (f : Frame) :
    Went t (t'.countRead f) (p.counted f) v (cs ++ p.report f) es n := by
  unfold countRead Pipe.counted Pipe.report
  rw [h.pipe]
  cases f.hasMore with
  | true =>
    simp only [if_true, Nat.add_zero, Bool.not_true, Bool.false_and, Bool.false_eq_true, if_false,
      List.append_nil]
    exact h
  | false =>
    simp only [Bool.false_eq_true, if_false, Bool.not_false, Bool.true_and]
    split
    · exact (h.withPipe _).post _
    · rw [List.append_nil]
      exact h.withPipe _

/-- Taking the fragments of an open message back, where all of them say that more follow. -/
theorem went_rollback {t' : Turn} (h : Went t t' p v cs es n) {id : QueueId}
    (hq : p.outbound = some id) (hall : (v id).fragments.all Frame.hasMore = true) :
    t'.rollback.result = .ok () ∧
      Went t t'.rollback.turn p (update v id { v id with fragments := [] }) cs es
        (n + (v id).fragments.length) := by
  obtain ⟨-, h2, h3⟩ := Queue.segments_unwriteWhile (t'.queues.get id) Frame.hasMore
  rw [h.segments] at h2 h3
  have h2 := h2 hall
  have hd : ((v id).fragments.rdropWhile Frame.hasMore).dropLast = [] := by
    rw [List.rdropWhile_eq_nil_iff.2 (by simpa using hall), List.dropLast_nil]
  rw [hd] at h3
  have hp := h.putQueue id ((t'.queues.get id).unwriteWhile Frame.hasMore).2
  rw [h3] at hp
  unfold rollback
  rw [h.pipe, hq]
  dsimp only
  rw [h2, List.all_reverse, if_pos hall]
  by_cases hn : (v id).fragments.reverse = []
  · rw [if_pos hn]
    have hl : (v id).fragments.length = 0 := by simpa using hn
    rw [hl]
    exact ⟨rfl, hp⟩
  · rw [if_neg hn]
    refine ⟨rfl, ?_⟩
    rw [List.length_reverse]
    exact hp.note (.rolledBack p.id (v id).fragments.length)

/-- A fragment that does not say that more follow ends the rollback. -/
theorem went_rollback_fault {t' : Turn} (h : Went t t' p v cs es n) {id : QueueId}
    (hq : p.outbound = some id) (hall : (v id).fragments.all Frame.hasMore = false) :
    t'.rollback.result = .error .unflaggedFragment ∧
      Went t t'.rollback.turn p
        (update v id
          { v id with fragments := ((v id).fragments.rdropWhile Frame.hasMore).dropLast })
        cs es n := by
  obtain ⟨h1, -, h3⟩ := Queue.segments_unwriteWhile (t'.queues.get id) Frame.hasMore
  rw [h.segments] at h1 h3
  have hp := h.putQueue id ((t'.queues.get id).unwriteWhile Frame.hasMore).2
  rw [h3] at hp
  unfold rollback
  rw [h.pipe, hq]
  dsimp only
  rw [h1, hall, if_neg Bool.false_ne_true]
  exact ⟨rfl, hp⟩

theorem rollback_of_none {t : Turn} (hq : t.pipe.outbound = none) :
    t.rollback = t.answer () := by
  unfold rollback
  rw [hq]

theorem endStream_of_none {t : Turn} (hq : t.pipe.outbound = none) : t.endStream = t := by
  unfold endStream
  rw [hq]

theorem went_endStream {t' : Turn} (h : Went t t' p v cs es n) {id : QueueId}
    (hs : p.state ≠ .terminating) (hq : p.outbound = some id) :
    Went t t'.endStream p (update v id ((v id).write .delimiter false).flush.2)
      (cs ++ ((v id).write .delimiter false).wake) es n := by
  have hp := h.putQueue id ((t'.queues.get id).write .delimiter false)
  rw [Queue.segments_write, h.segments] at hp
  have hf := hp.flush hs hq
  rw [Function.update_self, Function.update_idem] at hf
  unfold endStream
  rw [h.pipe, hq]
  exact hf

theorem terminate_ignored {t : Turn} {d : Bool} {s : State}
    (h : t.pipe.state.on (.terminate d) = some (s, .ignore)) :
    t.terminate d =
      ((t.withPipe { t.pipe with delay := d }).signalled s (.terminate d) .ignore).answer () := by
  unfold terminate
  rw [transition_of_on (t.withPipe { t.pipe with delay := d }) h]
  rfl

theorem terminate_of_on {t : Turn} {d : Bool} {s : State} {a : Action}
    (h : t.pipe.state.on (.terminate d) = some (s, a)) (ha : a ≠ .ignore) :
    t.terminate d =
      let signalled := (t.withPipe { t.pipe with delay := d }).signalled s (.terminate d) a
      (signalled.withPipe { signalled.pipe with outActive := false }).rollback.andThen fun _ t =>
        t.endStream.answer () := by
  unfold terminate
  rw [transition_of_on (t.withPipe { t.pipe with delay := d }) h]
  cases a with
  | ignore => exact absurd rfl ha
  | _ => rfl

theorem on_terminate_ignore {s s' : State} {d : Bool}
    (h : s.on (.terminate d) = some (s', .ignore)) : s' = s := by
  cases s <;> cases d <;> cases h <;> rfl

/-- An action that keeps the outbound queue leaves an endpoint that still flushes. -/
theorem on_terminate_ne {s s' : State} {d : Bool} {a : Action}
    (h : s.on (.terminate d) = some (s', a)) (ha : a ≠ .ignore) (hr : a.releases = false) :
    s' ≠ .terminating := by
  cases s <;> cases d <;> cases h <;> simp_all [Action.releases]

section Calls

variable {t : Turn} (ht : t.Quiet)
include ht

theorem reacts_checkWrite :
    Reacts t.pipe t.view (.call .checkWrite)
      (t.checkWrite.2.answer (Reply.flag t.checkWrite.1)).reaction := by
  rcases checkWrite_cases t with ⟨ho, hs, hn, e⟩ | ⟨h, e⟩ | ⟨ho, hs, hn, e⟩ <;> rw [e]
  · exact (Reacts.checkWriteTrue ho hs hn).of_eq ((went_self t).reaction ht)
  · exact (Reacts.checkWriteFalse h).of_eq ((went_self t).reaction ht)
  · exact (Reacts.checkWriteFull ho hs hn).of_eq (((went_self t).withPipe _).reaction ht)

theorem reacts_write (f : Frame) :
    Reacts t.pipe t.view (.call (.write f)) ((t.write f).map .ofWrite).reaction := by
  unfold write
  by_cases hf : f.isDelimiter = true
  · rw [if_pos hf]
    exact (Reacts.writeDelimiter hf).of_eq ((went_self t).reaction ht)
  rw [if_neg hf]
  have hf : f.isDelimiter = false := by simpa using hf
  rcases checkWrite_cases t with ⟨ho, hs, hn, e⟩ | ⟨h, e⟩ | ⟨ho, hs, hn, e⟩ <;>
    rw [e] <;> dsimp only
  · cases hq : t.pipe.outbound with
    | none =>
      exact (Reacts.writeRefused hf (.inr (.inr ⟨hn, hq⟩))).of_eq ((went_self t).reaction ht)
    | some q =>
      refine (Reacts.writeAccepted hf ho hs hn hq).of_eq ?_
      have h := went_countWritten ((went_self t).putQueue q
        ((t.queues.get q).write f f.hasMore)) f
      rw [Queue.segments_write] at h
      exact h.reaction ht
  · have h : t.pipe.outActive = false ∨ t.pipe.state ≠ .active ∨
        t.pipe.isFull = false ∧ t.pipe.outbound = none := h.imp_right .inl
    exact (Reacts.writeRefused hf h).of_eq ((went_self t).reaction ht)
  · exact (Reacts.writeFull hf ho hs hn).of_eq (((went_self t).withPipe _).reaction ht)

theorem reacts_flush :
    Reacts t.pipe t.view (.call .flush) (t.flush.answer Reply.done).reaction := by
  by_cases h : t.pipe.state = .terminating ∨ t.pipe.outbound = none
  · rw [flush_of_none h]
    exact (Reacts.flushNothing h).of_eq ((went_self t).reaction ht)
  · rw [not_or] at h
    obtain ⟨q, hq⟩ := Option.ne_none_iff_exists'.1 h.2
    exact (Reacts.flush h.1 hq).of_eq (((went_self t).flush h.1 hq).reaction ht)

theorem reacts_read : Reacts t.pipe t.view (.call .read) (t.read.map .ofRead).reaction := by
  unfold read
  by_cases hm : t.pipe.mayRead = true
  swap
  · rw [if_neg hm]
    exact (Reacts.lookIdle rfl (by simpa using hm)).of_eq ((went_self t).reaction ht)
  rw [if_pos hm]
  cases hi : t.pipe.inbound with
  | none =>
    exact (Reacts.readClosed hm hi).of_eq (((went_self t).withPipe _).reaction ht)
  | some id =>
    dsimp only
    cases hv : (t.view id).visible with
    | nil =>
      obtain ⟨q', e, hq'⟩ := Queue.read_nil (q := t.queues.get id) hv
      refine (Reacts.lookDry rfl hm hi hv).of_eq ?_
      have h := ((went_self t).putQueue id q').withPipe { t.pipe with inActive := false }
      rw [hq'] at h
      rw [e]
      exact h.reaction ht
    | cons f fs =>
      obtain ⟨q', e, hq'⟩ := Queue.read_cons (q := t.queues.get id) hv
      have h := (went_self t).putQueue id q'
      rw [hq'] at h
      rw [e]
      dsimp only
      by_cases hf : f.isDelimiter = true
      · rw [if_pos hf]
        obtain ⟨s, a, hon⟩ := t.pipe.on_delimiterRead_of_mayRead hm
        refine (Reacts.lookDelimiter rfl hm hi hv hf hon).of_eq ?_
        rw [transition_of_on (t.putQueue id q') hon]
        exact (h.signal s .delimiterRead a).reaction ht
      · rw [if_neg hf]
        refine (Reacts.readFrame hm hi hv (by simpa using hf)).of_eq ?_
        exact (went_countRead h f).reaction ht

theorem reacts_checkRead :
    Reacts t.pipe t.view (.call .checkRead) (t.checkRead.map .flag).reaction := by
  unfold checkRead
  by_cases hm : t.pipe.mayRead = true
  swap
  · rw [if_neg hm]
    exact (Reacts.lookIdle rfl (by simpa using hm)).of_eq ((went_self t).reaction ht)
  rw [if_pos hm]
  cases hi : t.pipe.inbound with
  | none => exact (Reacts.checkReadClosed hm hi).of_eq ((went_self t).reaction ht)
  | some id =>
    dsimp only
    cases hv : (t.view id).visible with
    | nil =>
      obtain ⟨q', e, hq'⟩ := Queue.checkRead_nil (q := t.queues.get id) hv
      refine (Reacts.lookDry rfl hm hi hv).of_eq ?_
      have h := ((went_self t).putQueue id q').withPipe { t.pipe with inActive := false }
      rw [hq'] at h
      rw [e]
      exact h.reaction ht
    | cons f fs =>
      obtain ⟨q₁, e₁, h₁⟩ := Queue.checkRead_cons (q := t.queues.get id) hv
      have hv₁ : q₁.segments.visible = f :: fs := by rw [h₁]; exact hv
      obtain ⟨q₂, e₂, h₂⟩ := Queue.probe_cons hv₁
      have hv₂ : q₂.segments.visible = f :: fs := by rw [h₂]; exact hv₁
      obtain ⟨q₃, e₃, h₃⟩ := Queue.read_cons hv₂
      rw [h₂, h₁] at h₃
      rw [e₁]
      dsimp only
      rw [e₂]
      dsimp only
      by_cases hf : f.isDelimiter = true
      · rw [if_pos hf, e₃]
        have h := (went_self t).putQueue id q₃
        rw [h₃] at h
        obtain ⟨s, a, hon⟩ := t.pipe.on_delimiterRead_of_mayRead hm
        refine (Reacts.lookDelimiter rfl hm hi hv hf hon).of_eq ?_
        dsimp only
        rw [transition_of_on (t.putQueue id q₃) hon]
        exact (h.signal s .delimiterRead a).reaction ht
      · rw [if_neg hf]
        refine (Reacts.seeFrame hm hi hv (by simpa using hf)).of_eq ?_
        have h := (went_self t).putQueue id q₂
        rw [h₂, h₁, (went_self t).segments id, Function.update_eq_self] at h
        exact h.reaction ht

theorem reacts_rollback :
    Reacts t.pipe t.view (.call .rollback) (t.rollback.map fun _ => Reply.done).reaction := by
  cases hq : t.pipe.outbound with
  | none =>
    rw [rollback_of_none hq]
    exact (Reacts.rollbackNothing hq).of_eq ((went_self t).reaction ht)
  | some id =>
    cases hall : (t.view id).fragments.all Frame.hasMore with
    | true =>
      obtain ⟨h1, h2⟩ := went_rollback (went_self t) hq hall
      rw [Nat.zero_add] at h2
      refine (Reacts.rollback hq hall).of_eq ((Went.reaction h2 ht).trans ?_)
      rw [Outcome.map, h1]
      rfl
    | false =>
      obtain ⟨h1, h2⟩ := went_rollback_fault (went_self t) hq hall
      refine (Reacts.rollbackFault hq hall).of_eq ((Went.reaction h2 ht).trans ?_)
      rw [Outcome.map, h1]
      rfl

theorem reacts_hiccup :
    Reacts t.pipe t.view (.call .hiccup) (t.hiccup.answer Reply.done).reaction := by
  unfold hiccup
  by_cases hs : t.pipe.state = .active
  · rw [if_pos hs]
    cases hi : t.pipe.inbound with
    | none => exact (Reacts.hiccupIgnored (.inr hi)).of_eq ((went_self t).reaction ht)
    | some q =>
      have h := ((((went_self t).putQueue (.inbound t.pipe.id (t.pipe.generation + 1))
        .empty).withPipe { t.pipe with
          inbound := some (.inbound t.pipe.id (t.pipe.generation + 1))
          generation := t.pipe.generation + 1
          inActive := true }).note (.replaced t.pipe.id)).post
        (.hiccup (.inbound t.pipe.id (t.pipe.generation + 1)) q)
      exact (Reacts.hiccup hs hi).of_eq (h.reaction ht)
  · rw [if_neg hs]
    exact (Reacts.hiccupIgnored (.inl hs)).of_eq ((went_self t).reaction ht)

theorem reacts_terminate (d : Bool) :
    Reacts t.pipe t.view (.call (.terminate d))
      ((t.terminate d).map fun _ => Reply.done).reaction := by
  obtain ⟨⟨s, a⟩, hon⟩ := Option.isSome_iff_exists.1 (State.on_terminate_isSome t.pipe.state d)
  have hd := ((went_self t).withPipe { t.pipe with delay := d }).signal s (.terminate d) a
  by_cases ha : a = .ignore
  · subst ha
    have hs : s = t.pipe.state := on_terminate_ignore hon
    subst hs
    rw [terminate_ignored hon]
    exact (Reacts.terminateIgnored hon).of_eq (Went.reaction hd ht)
  rw [terminate_of_on hon ha]
  dsimp only
  rw [hd.pipe]
  have hp := hd.withPipe { t.pipe.signalled s a with delay := d, outActive := false }
  cases hq : (t.pipe.signalled s a).outbound with
  | none =>
    refine (Reacts.terminateReleased hon ha hq).of_eq ?_
    rw [rollback_of_none (by exact hq)]
    refine Went.reaction ?_ ht
    show Went t (endStream _) _ _ _ _ _
    rw [endStream_of_none (by exact hq)]
    exact hp
  | some id =>
    have hr : a.releases = false := by
      unfold Pipe.signalled at hq
      cases h : a.releases <;> simp_all
    have hs := on_terminate_ne hon ha hr
    cases hall : (t.view id).fragments.all Frame.hasMore with
    | true =>
      obtain ⟨h1, h2⟩ := went_rollback hp hq hall
      have h3 := went_endStream h2 hs hq
      rw [Function.update_self, Function.update_idem, Nat.zero_add] at h3
      refine (Reacts.terminate hon ha hq hall).of_eq ?_
      unfold Outcome.andThen
      exact h1 ▸ Went.reaction h3 ht
    | false =>
      obtain ⟨h1, h2⟩ := went_rollback_fault hp hq hall
      refine (Reacts.terminateFault hon ha hq hall).of_eq ?_
      unfold Outcome.andThen
      exact h1 ▸ Went.reaction h2 ht

/-- **Every call is one of the listed reactions.** -/
theorem reacts_perform (c : Call) : Reacts t.pipe t.view (.call c) (t.perform c).reaction := by
  cases c with
  | write f => exact reacts_write ht f
  | read => exact reacts_read ht
  | checkRead => exact reacts_checkRead ht
  | checkWrite => exact reacts_checkWrite ht
  | flush => exact reacts_flush ht
  | rollback => exact reacts_rollback ht
  | hiccup => exact reacts_hiccup ht
  | terminate d => exact reacts_terminate ht d

end Calls

/-! ### The commands -/

/-- Moving a stream changes the queues as `View.moveStream` says. -/
theorem went_moveStream {t' : Turn} (h : Went t t' p v cs es n) (old writer retired : QueueId) :
    Went t (t'.moveStream old writer retired).2 p (v.moveStream old writer retired) cs es n := by
  obtain ⟨-, hf⟩ := Queue.segments_flush (t'.queues.get old)
  obtain ⟨u1, u2⟩ := Queue.segments_unwriteAll (t'.queues.get old).flush.2
  rw [hf, h.segments] at u1 u2
  have h1 := h.putQueue old (t'.queues.get old).flush.2.unwriteAll.2
  rw [u2] at h1
  obtain ⟨r1, r2⟩ := Queue.segments_readAll
    ((t'.putQueue old (t'.queues.get old).flush.2.unwriteAll.2).queues.get retired)
  rw [h1.segments] at r1 r2
  have h2 := h1.putQueue retired
    ((t'.putQueue old (t'.queues.get old).flush.2.unwriteAll.2).queues.get retired).readAll.2
  rw [r2] at h2
  unfold moveStream View.moveStream
  dsimp only
  rw [r1, u1, List.reverse_reverse, Segments.fragments_flush]
  have h3 := h2.putQueue writer
    (((((t'.putQueue old (t'.queues.get old).flush.2.unwriteAll.2).putQueue retired
      ((t'.putQueue old (t'.queues.get old).flush.2.unwriteAll.2).queues.get
        retired).readAll.2).queues.get writer).writeAll Frame.hasMore
          (update v old { (v old).flush.2 with fragments := [] } retired).visible).writeAll
            (fun _ => true) (v old).fragments)
  rw [Queue.segments_writeAll, Queue.segments_writeAll, h2.segments] at h3
  exact h3

/-- Giving the inbound queue up drops what is left in it. -/
theorem went_deallocate {t' : Turn} (h : Went t t' p v cs es n) {id : QueueId}
    (hi : p.inbound = some id) :
    Went t t'.deallocate { p with inbound := none }
      (update v id { v id with visible := [], idle := true }) cs es n := by
  obtain ⟨-, h2⟩ := Queue.segments_readAll (t'.queues.get id)
  rw [h.segments] at h2
  have hp := (h.putQueue id (t'.queues.get id).readAll.2).withPipe { p with inbound := none }
  rw [h2] at hp
  unfold deallocate
  rw [h.pipe, hi]
  exact hp.note _

section Commands

variable {t : Turn} (ht : t.Quiet)
include ht

theorem reacts_pipeTerm :
    Reacts t.pipe t.view (.command .pipeTerm)
      (t.processPipeTerm.map fun _ => Reply.done).reaction := by
  unfold processPipeTerm
  cases hon : t.pipe.state.on (.peerTerm t.pipe.delay) with
  | none =>
    rw [transition_of_none t hon]
    exact (Reacts.pipeTermFault hon).of_eq ((went_self t).reaction ht)
  | some sa =>
    obtain ⟨s, a⟩ := sa
    rw [transition_of_on t hon]
    exact (Reacts.pipeTerm hon).of_eq (((went_self t).signal s _ a).reaction ht)

theorem reacts_pipeTermAck :
    Reacts t.pipe t.view (.command .pipeTermAck)
      (t.processPipeTermAck.map fun _ => Reply.done).reaction := by
  unfold processPipeTermAck
  cases hi : t.pipe.inbound with
  | none =>
    rw [if_pos (by rw [Pipe.isClosed, hi]; rfl)]
    exact (Reacts.pipeTermAckTwice hi).of_eq ((went_self t).reaction ht)
  | some q =>
    rw [if_neg (by simp [Pipe.isClosed, hi])]
    cases hon : t.pipe.state.on .peerTermAck with
    | none =>
      rw [transition_of_none t hon]
      exact (Reacts.pipeTermAckFault hi hon).of_eq ((went_self t).reaction ht)
    | some sa =>
      obtain ⟨s, a⟩ := sa
      rw [transition_of_on t hon]
      have h := ((went_self t).signal s .peerTermAck a).notify .terminated
      exact (Reacts.pipeTermAck hi hon).of_eq (Went.reaction (went_deallocate h hi) ht)

theorem reacts_activateRead :
    Reacts t.pipe t.view (.command .activateRead)
      (t.processActivateRead.answer Reply.done).reaction := by
  unfold processActivateRead
  by_cases h : (!t.pipe.inActive && t.pipe.state.isReadable) = true
  · rw [if_pos h]
    obtain ⟨h1, h2⟩ : t.pipe.inActive = false ∧ t.pipe.state.isReadable = true := by simpa using h
    exact (Reacts.activateRead h1 h2).of_eq
      ((((went_self t).withPipe _).notify .readActivated).reaction ht)
  · rw [if_neg h]
    refine (Reacts.activateReadIgnored ?_).of_eq ((went_self t).reaction ht)
    cases hi : t.pipe.inActive
    · exact .inr (by simpa [hi] using h)
    · exact .inl rfl

theorem reacts_activateWrite (n : Nat) :
    Reacts t.pipe t.view (.command (.activateWrite n))
      ((t.processActivateWrite n).answer Reply.done).reaction := by
  unfold processActivateWrite
  by_cases h : (!t.pipe.outActive && t.pipe.state == .active) = true
  · rw [if_pos h]
    obtain ⟨h1, h2⟩ : t.pipe.outActive = false ∧ t.pipe.state = .active := by simpa using h
    exact (Reacts.activateWrite h1 h2).of_eq
      ((((went_self t).withPipe _).notify .writeActivated).reaction ht)
  · rw [if_neg h]
    refine (Reacts.activateWriteQuiet ?_).of_eq (((went_self t).withPipe _).reaction ht)
    cases ho : t.pipe.outActive
    · exact .inr (by simpa [ho] using h)
    · exact .inl rfl

theorem reacts_processHiccup (w r : QueueId) :
    Reacts t.pipe t.view (.command (.hiccup w r))
      ((t.processHiccup w r).answer Reply.done).reaction := by
  unfold processHiccup
  cases hq : t.pipe.outbound with
  | none => exact (Reacts.hiccupReleased hq).of_eq (((went_self t).note _).reaction ht)
  | some old =>
    have hm := (went_moveStream (went_self t) old w r).withPipe
      { t.pipe with outbound := some w, outActive := true }
    dsimp only
    rw [(went_moveStream (went_self t) old w r).pipe]
    by_cases hs : t.pipe.state = .terminating
    · rw [flush_of_none (.inl (by exact hs)), if_neg (by rw [hs]; decide)]
      exact (Reacts.hiccupUnflushed hs hq).of_eq ((hm.note _).reaction ht)
    · have hf := (hm.flush hs rfl).note
        (.moved t.pipe.id (t.moveStream old w r).1)
      refine (Reacts.hiccupMoved hs hq).of_eq ?_
      by_cases ha : t.pipe.state = .active
      · rw [if_pos ha, if_pos ha]
        exact (hf.notify .hiccuped).reaction ht
      · rw [if_neg ha, if_neg ha]
        exact hf.reaction ht

/-- What obeying a command comes to, for any command. -/
theorem reacts_obey (c : Command) :
    Reacts t.pipe t.view (.command c) ((t.obey c).map fun _ => Reply.done).reaction := by
  cases c with
  | pipeTerm => exact reacts_pipeTerm ht
  | pipeTermAck => exact reacts_pipeTermAck ht
  | activateRead => exact reacts_activateRead ht
  | activateWrite n => exact reacts_activateWrite ht n
  | hiccup w r => exact reacts_processHiccup ht w r

/-- **Every command is taken in one of the listed reactions.** -/
theorem reacts_process (c : Command) :
    Reacts t.pipe t.view (.command c) ((t.process c).map fun _ => Reply.done).reaction :=
  reacts_obey (t := t.note _) ⟨by rw [posted_note, ht.posted], by rw [events_note, ht.events],
    by rw [takenBack_note, ht.takenBack]; rfl⟩ c

end Commands

end Turn

end MessagePipe
