import MessagePipe.Proofs.Convergence
import MessagePipe.Proofs.Unblocking

/-!
# What a writer hears after it was turned down

A writer that is turned down at its watermark waits for its sink to tell it to go on
(`write_activated`, §6 of the specification: the peer caught up and the pipe accepts writes again).
The report of the peer does so, as long as the pipe is still marked as not worth writing to
(`process_activate_write`, §4.2). A replaced queue takes that mark away as well, also while the pipe
is full (`process_hiccup`, §11.3), and all the sink is told then is that the queue was replaced.

* `Reacts.shut_of_refused`: an endpoint in operation that turned a write down is marked.
* `Reacts.reopened`: two commands take the mark away from an endpoint in operation, and tell its
  sink so each in its own way.
* `Attended`: the events of a side go to a sink that somebody receives from. `Attended.step_of_shut`
  and `Attended.run_of_shut` say what becomes of the mark, by the events that the sink gained.
* `Link.write_wake_up`: between being turned down and the next report that is taken in operation,
  the sink is told to go on, or a queue was replaced; and the report leaves room.
* `Link.write_wake_up_of_read`: the message is read, and the writer told.
* `Link.write_wake_up_lost`: with a queue replaced in between, a sink that does not hear of that
  hears nothing at all, and its owner may wait for good.

Premises: open mailboxes and a sink.

Out of scope: that a report comes, which is `Proofs/Unblocking`. An owner that calls `check_write`
again finds the truth at any time (`Proofs/Room`).
-/

namespace MessagePipe

/-- The notice that writing is possible again is passed on by every sink. -/
theorem Sink.hears_writeActivated (sink : Sink) : sink.hears .writeActivated = true := by
  cases sink <;> rfl

section Reacts

variable {p : Pipe} {v : View} {st : Stimulus} {r : Reaction}

/-- An endpoint in operation that turned a write down is marked as not worth writing to. -/
theorem Reacts.shut_of_refused {c : Call} (h : Reacts p v (.call c) r) (hp : p.Honest)
    (hs : p.state = .active)
    (hr : c = .checkWrite ∧ r.result = .ok (.flag false) ∨
      ∃ f, c = .write f ∧ r.result = .ok (.refused f)) :
    r.pipe.outActive = false ∧ r.pipe.state = .active := by
  have hout : p.outbound ≠ none := fun hn => by
    rw [Pipe.Honest, hn, hs] at hp
    cases hp
  rcases hr with ⟨rfl, hr⟩ | ⟨f, rfl, hr⟩
  · rcases h.checkWrite_outcome with ⟨rfl, -⟩ | ⟨o, rfl, hno⟩
    · cases hr
    · exact ⟨(hno.resolve_left fun hn => hn hs).1, hs⟩
  · cases h with
    | writeDelimiter hf => cases hr
    | writeRefused hf h =>
      rcases h with ho | hn | ⟨-, hn⟩
      · exact ⟨ho, hs⟩
      · exact absurd hs hn
      · exact absurd hn hout
    | writeFull hf ho hs' hn => exact ⟨rfl, hs⟩
    | writeAccepted hf ho hs' hn hq => cases hr
    | lookIdle hc | lookDry hc | lookDelimiter hc => cases hc

/-- A report tells the sink of an endpoint in operation that carries the mark. -/
theorem Reacts.writeActivated_of_shut {n : Nat} (h : Reacts p v (.command (.activateWrite n)) r)
    (ho : p.outActive = false) (hs : p.state = .active) : r.events = [.writeActivated] := by
  cases h with
  | activateWrite h hs' => rfl
  | activateWriteQuiet h =>
    rcases h with h | h
    · cases ho.symm.trans h
    · exact absurd hs h

/-- **Two commands open an endpoint in operation again, and tell its sink so each in its own
way.** -/
theorem Reacts.reopened (h : Reacts p v st r) (ho : p.outActive = false)
    (hs : r.pipe.state = .active) :
    r.pipe.outActive = false ∨
      (∃ n, st = .command (.activateWrite n) ∧ r.events = [.writeActivated]) ∨
      ∃ w q, st = .command (.hiccup w q) ∧ r.events = [.hiccuped] := by
  cases h with
  | activateWrite h hs' => exact .inr (.inl ⟨_, rfl, rfl⟩)
  | hiccupMoved hs' hq => exact .inr (.inr ⟨_, _, rfl, if_pos hs⟩)
  | hiccupUnflushed hs' hq => cases hs'.symm.trans hs
  | terminateReleased | terminate | terminateFault | writeFull | checkWriteFull => exact .inl rfl
  | _ => exact .inl ho

end Reacts

namespace Link

/-! ## What a sink is passed -/

/-- The events of a side go to a sink that somebody receives from. -/
structure Attended (l : Link) (s : Side) (sink : Sink) : Prop where
  sink : (l.side s).pipe.sink = some sink
  listening : (l.side s).listening = true

variable {config : Config} {a b : Plan} {may : Link → Step → Prop} {tr : Trace} {l : Link}
  {s : Side} {sink : Sink}

theorem Took.sink_eq {st : Stimulus} {r : Reaction} {rep : Report} {l' : Link} {s' : Side}
    (ht : Took l s' st r rep l') (s : Side) : (l'.side s).pipe.sink = (l.side s).pipe.sink := by
  rcases s'.eq_or_eq_other s with rfl | rfl
  · rw [ht.own, ht.reacts.sink]
  · rw [ht.peer]

/-- Whoever has a sink is listened to. -/
theorem Run.listening (h : Run config a b may tr l)
    (hs : (l.side s).pipe.sink.isSome = true) : (l.side s).listening = true := by
  induction h with
  | fresh h =>
    obtain ⟨log, rfl⟩ := eq_of_create h
    cases s <;> exact hs
  | @step tr l step h _ ih =>
    cases step with
    | call s' c =>
      obtain ⟨r, ht⟩ := l.took_call s' c
      rw [ht.sink_eq] at hs
      rw [ht.listening]
      exact ih hs
    | deliver s' =>
      cases hc : l.commands s' with
      | nil =>
        rw [step_deliver_nil hc] at hs ⊢
        exact ih hs
      | cons c left =>
        obtain ⟨r, ht⟩ := took_deliver hc
        rw [ht.sink_eq] at hs
        rw [ht.listening]
        exact ih hs
    | setSink s' sink =>
      cases hk : (l.side s').pipe.sink with
      | some _ =>
        rw [step_setSink_of_some hk] at hs ⊢
        exact ih hs
      | none =>
        rw [step_setSink_of_none hk] at hs ⊢
        rcases s'.eq_or_eq_other s with rfl | rfl
        · rw [side_put_self]
        · rw [side_put_other] at hs ⊢
          exact ih hs
    | setIdentity s' identity =>
      cases hk : (l.side s').pipe.identity with
      | some _ =>
        rw [step_setIdentity_of_some hk] at hs ⊢
        exact ih hs
      | none =>
        rw [step_setIdentity_of_none hk] at hs ⊢
        rcases s'.eq_or_eq_other s with rfl | rfl
        · rw [side_put_self] at hs ⊢
          exact ih hs
        · rw [side_put_other] at hs ⊢
          exact ih hs
    | closeInbox s' =>
      cases s <;> cases s' <;> exact ih hs

/-- A sink stays the one it is, listened to, and is passed events behind those before. -/
theorem Attended.step (h : Attended l s sink) (step : Step) :
    Attended (l.step step).2 s sink ∧
      ∃ gained, ((l.step step).2.side s).events = (l.side s).events ++ gained := by
  rcases l.step_cases step with ⟨s', st, r, -, ht⟩ | ⟨-, hk, -⟩
  · refine ⟨⟨(ht.sink_eq s).trans h.sink, (ht.listening s).trans h.listening⟩, ?_⟩
    rcases s'.eq_or_eq_other s with rfl | rfl
    · exact ⟨_, ht.heard sink (ht.reacts.sink.trans h.sink) h.listening⟩
    · exact ⟨[], by rw [ht.unheard, List.append_nil]⟩
  · obtain ⟨k, i, hp, hsink⟩ := hk.pipe s
    refine ⟨⟨?_, hk.listening s h.listening⟩, [], by rw [hk.events, List.append_nil]⟩
    rw [hp, hsink (by rw [h.sink]; rfl)]
    exact h.sink

theorem Attended.run (h : Attended l s sink) (steps : List Step) :
    Attended (l.run steps).2 s sink ∧
      ∃ gained, ((l.run steps).2.side s).events = (l.side s).events ++ gained := by
  induction steps generalizing l with
  | nil => exact ⟨h, [], (List.append_nil _).symm⟩
  | cons step steps ih =>
    obtain ⟨h', g, hg⟩ := h.step step
    obtain ⟨h'', g', hg'⟩ := ih h'
    exact ⟨h'', g ++ g', by rw [run_cons, hg', hg, List.append_assoc]⟩

/-! ## What happens to a side that turned a write down -/

/-- Side `s` in operation turns a write down in a step, or answers that it would. -/
def Refuses (l : Link) (s : Side) (step : Step) : Prop :=
  (l.side s).pipe.state = .active ∧
    (step = .call s .checkWrite ∧ (l.step step).1.result = .ok (.flag false) ∨
      ∃ f, step = .call s (.write f) ∧ (l.step step).1.result = .ok (.refused f))

/-- Among steps there is one in which side `s` takes the notice of a replaced queue. -/
def Replaced (l : Link) (s : Side) (steps : List Step) : Prop :=
  ∃ before after w q left, steps = before ++ .deliver s :: after ∧
    (l.run before).2.commands s = .hiccup w q :: left

theorem Replaced.cons {step : Step} {steps : List Step} (h : Replaced (l.step step).2 s steps) :
    Replaced l s (step :: steps) := by
  obtain ⟨before, after, w, q, left, rfl, hc⟩ := h
  exact ⟨step :: before, after, w, q, left, rfl, hc⟩

/-- The mark is left, or the sink is told to go on, or a queue is replaced. -/
theorem Attended.step_of_shut (h : Attended l s sink) (ho : (l.side s).pipe.outActive = false)
    {step : Step} (ha : ((l.step step).2.side s).pipe.state = .active) :
    ((l.step step).2.side s).pipe.outActive = false ∨
      ((l.step step).2.side s).events = (l.side s).events ++ [.writeActivated] ∨
      (∃ w q left, step = .deliver s ∧ l.commands s = .hiccup w q :: left) ∧
        ((l.step step).2.side s).events = (l.side s).events ++ [Event.hiccuped].filter sink.hears := by
  rcases l.step_cases_at step s with ⟨st, r, hst, ht⟩ | haside
  · have he := ht.heard sink (ht.reacts.sink.trans h.sink) h.listening
    rw [ht.own] at ha ⊢
    rcases ht.reacts.reopened ho ha with hc | ⟨n, rfl, hev⟩ | ⟨w, q, rfl, hev⟩
    · exact .inl hc
    · rw [hev, List.filter_cons_of_pos sink.hears_writeActivated, List.filter_nil] at he
      exact .inr (.inl he)
    · rcases hst with ⟨c, -, hst⟩ | ⟨hst, -⟩
      · cases hst
      · rw [hev] at he
        exact .inr (.inr ⟨⟨w, q, _, hst, ht.inbox⟩, he⟩)
  · obtain ⟨k, i, hp⟩ := haside.pipe
    rw [hp]
    exact .inl ho

theorem active_of_run {steps : List Step} (ha : ((l.run steps).2.side s).pipe.state = .active) :
    (l.side s).pipe.state = .active := by
  induction steps generalizing l with
  | nil => exact ha
  | cons step steps ih =>
    by_contra hn
    exact step_not_active hn step (ih ha)

/-- What became of the mark of a side, by the events that its sink gained. -/
theorem Attended.run_of_shut (h : Attended l s sink) (ho : (l.side s).pipe.outActive = false)
    {steps : List Step} (ha : ((l.run steps).2.side s).pipe.state = .active) :
    ∃ gained, ((l.run steps).2.side s).events = (l.side s).events ++ gained ∧
      (((l.run steps).2.side s).pipe.outActive = false ∨ .writeActivated ∈ gained ∨
        Replaced l s steps ∧ (sink.hears .hiccuped = true → .hiccuped ∈ gained)) := by
  induction steps generalizing l with
  | nil => exact ⟨[], (List.append_nil _).symm, .inl ho⟩
  | cons step steps ih =>
    have h' := (h.step step).1
    obtain ⟨rest, hrest⟩ := (h'.run steps).2
    rw [run_cons]
    rcases h.step_of_shut ho (active_of_run ha) with ho' | he | ⟨⟨w, q, left, rfl, hc⟩, he⟩
    · obtain ⟨gained, hg, hcases⟩ := ih h' ho' ha
      obtain ⟨first, hf⟩ := (h.step step).2
      refine ⟨first ++ gained, by rw [hg, hf, List.append_assoc], ?_⟩
      rcases hcases with hc | hw | ⟨hr, hh⟩
      · exact .inl hc
      · exact .inr (.inl (List.mem_append_right _ hw))
      · exact .inr (.inr ⟨hr.cons, fun hs => List.mem_append_right _ (hh hs)⟩)
    · refine ⟨_, by rw [hrest, he, List.append_assoc], .inr (.inl ?_)⟩
      exact List.mem_append_left _ (List.mem_singleton_self _)
    · refine ⟨_, by rw [hrest, he, List.append_assoc], .inr (.inr ⟨?_, fun hs => ?_⟩)⟩
      · exact ⟨[], steps, w, q, left, rfl, hc⟩
      · rw [List.filter_cons_of_pos hs]
        exact List.mem_append_left _ List.mem_cons_self

/-- **A writer that was turned down hears of the report that makes room, or of a replaced queue.** A
side in operation turned a write down, and takes a report while it still is in operation. Then it
is below its watermark, and since it was turned down its sink was told to go on, or a queue was
replaced and the sink told of that, if it hears of it. -/
theorem write_wake_up (h : OpenRun config a b tr l) (hk : (l.side s).pipe.sink = some sink)
    {refusal : Step} (hr : Refuses l s refusal) {steps : List Step}
    (hp : Permits (fun _ s => s.keepsOpen = true) (l.step refusal).2 steps) {l' : Link}
    (hl : l' = ((l.step refusal).2.run steps).2) {n : Nat} {left : List Command}
    (hc : l'.commands s = .activateWrite n :: left) (ha : (l'.side s).pipe.state = .active) :
    ((l'.step (.deliver s)).2.side s).pipe.isFull = false ∧
      ∃ gained,
        ((l'.step (.deliver s)).2.side s).events =
          ((l.step refusal).2.side s).events ++ gained ∧
        (.writeActivated ∈ gained ∨
          Replaced (l.step refusal).2 s steps ∧
            (sink.hears .hiccuped = true → .hiccuped ∈ gained)) := by
  obtain ⟨hactive, hr⟩ := hr
  obtain ⟨c, rfl⟩ : ∃ c, refusal = .call s c := by
    rcases hr with ⟨rfl, -⟩ | ⟨f, rfl, -⟩
    · exact ⟨_, rfl⟩
    · exact ⟨_, rfl⟩
  have hk₀ : Attended l s sink := ⟨hk, h.listening (by rw [hk]; rfl)⟩
  -- Being turned down leaves the mark.
  obtain ⟨x, hf, hx⟩ := h.exists_sound
  have hhonest := hx.agrees.honest s
  rw [hf.pipe] at hhonest
  obtain ⟨r, ht⟩ := l.took_call s c
  have hshut : r.pipe.outActive = false := by
    refine (ht.reacts.shut_of_refused hhonest hactive ?_).1
    rcases hr with ⟨hc, hr⟩ | ⟨f, hc, hr⟩ <;> cases hc
    · exact .inl ⟨rfl, ht.result.symm.trans hr⟩
    · exact .inr ⟨f, rfl, ht.result.symm.trans hr⟩
  have hk₁ := (hk₀.step (.call s c)).1
  have h' : OpenRun config a b _ l' := hl ▸ (h.step rfl).append steps hp
  obtain ⟨gained, hgained, hmark⟩ := hk₁.run_of_shut (by rw [ht.own]; exact hshut) (hl ▸ ha)
  rw [← hl] at hgained hmark
  have hk₂ : Attended l' s sink := hl ▸ (hk₁.run steps).1
  obtain ⟨r', ht'⟩ := took_deliver hc
  have he := ht'.heard sink (ht'.reacts.sink.trans hk₂.sink) hk₂.listening
  refine ⟨?_, gained ++ r'.events.filter sink.hears, ?_, ?_⟩
  · obtain ⟨y, hg, -, hy⟩ := h'.exists_tallied
    rw [ht'.own]
    refine hy.room_of_report ((hg.due _ (h'.receiving _)).trans hc) ?_
    rw [hg.pipe, hg.view]
    exact ht'.reacts
  · rw [he, hgained, List.append_assoc]
  · rcases hmark with ho | hw | ⟨hq, hh⟩
    · left
      rw [ht'.reacts.writeActivated_of_shut ho ha,
        List.filter_cons_of_pos sink.hears_writeActivated]
      exact List.mem_append_right _ List.mem_cons_self
    · exact .inl (List.mem_append_left _ hw)
    · exact .inr ⟨hq, fun hs => List.mem_append_left _ (hh hs)⟩

/-- The message is read, and the writer that was turned down told to go on. -/
theorem write_wake_up_of_read :
    ∃ (tr : Trace) (l l' : Link),
      OpenRun {} { options := {}, sink := some .plain } { options := { hwm := 1 } } tr l ∧
      Refuses l .a (.call .a .checkWrite) ∧
      l' = ((l.step (.call .a .checkWrite)).2.run [.call .a .flush, .call .b .read]).2 ∧
      l'.commands .a = [.activateWrite 1] ∧
      ∃ gained,
        ((l'.step (.deliver .a)).2.side .a).events =
          ((l.step (.call .a .checkWrite)).2.side .a).events ++ gained ∧
        (.writeActivated ∈ gained ∨
          Replaced (l.step (.call .a .checkWrite)).2 .a [.call .a .flush, .call .b .read]) := by
  have h : OpenRun {} { options := {}, sink := some .plain } { options := { hwm := 1 } } _ _ :=
    run_of_steps rfl [.call .a (.write (.ofBytes ⟨#[1]⟩))] ⟨rfl, trivial⟩
  obtain ⟨gained, hg, hw⟩ := (write_wake_up h (show _ = some Sink.plain by decide)
    (show Refuses _ .a (.call .a .checkWrite) from ⟨by decide, .inl ⟨rfl, by decide⟩⟩)
    (show Permits _ _ [.call .a .flush, .call .b .read] from ⟨rfl, rfl, trivial⟩) rfl
    (show _ = CommandOf.activateWrite 1 :: [] by decide) (by decide)).2
  exact ⟨_, _, _, h, ⟨by decide, .inl ⟨rfl, by decide⟩⟩, rfl, by decide, gained, hg,
    hw.imp_right And.left⟩

/-- **With a queue replaced in between, the report alone does not tell the writer.** A side is
turned down at its watermark, its peer replaces the queue and reads the message that was in the way,
and the report is taken: a sink that does not hear of replaced queues is passed nothing. -/
theorem write_wake_up_lost :
    ¬ ∀ (config : Config) (a b : Plan) (tr : Trace) (l l' : Link) (s : Side) (sink : Sink)
        (refusal : Step) (steps : List Step) (n : Nat) (left : List Command),
      OpenRun config a b tr l → (l.side s).pipe.sink = some sink → Refuses l s refusal →
      Permits (fun _ s => s.keepsOpen = true) (l.step refusal).2 steps →
      l' = ((l.step refusal).2.run steps).2 →
      l'.commands s = .activateWrite n :: left → (l'.side s).pipe.state = .active →
      ((l'.step (.deliver s)).2.side s).pipe.isFull = false →
      ∃ gained,
        ((l'.step (.deliver s)).2.side s).events =
          ((l.step refusal).2.side s).events ++ gained ∧
        .writeActivated ∈ gained := by
  intro hall
  have h : OpenRun {} { options := {}, sink := some .plain } { options := { hwm := 1 } } _ _ :=
    run_of_steps rfl [.call .a (.write (.ofBytes ⟨#[1]⟩))] ⟨rfl, trivial⟩
  obtain ⟨gained, he, hw⟩ := hall _ _ _ _ _ _ .a .plain (.call .a .checkWrite)
    [.call .b .hiccup, .deliver .a, .call .b .read] 1 [] h (by decide)
    ⟨by decide, .inl ⟨rfl, by decide⟩⟩ ⟨rfl, rfl, rfl, trivial⟩ rfl (by decide) (by decide)
    (by decide)
  have hnone : gained = [] := (List.append_eq_nil_iff.1 (he.symm.trans (by decide))).2
  rw [hnone] at hw
  cases hw

end Link

end MessagePipe
