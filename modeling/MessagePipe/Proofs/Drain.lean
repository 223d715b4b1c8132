import MessagePipe.Proofs.Accounting
import MessagePipe.Proofs.OneWay

/-!
# A stream that ends was read to its end

An end that asks to terminate puts a delimiter behind every message it completed, and behind no part
of one it did not (§4.3 of the specification: rollback, delimiter and flush never fail on the
watermark). So whoever comes to the delimiter has read every complete message, however the queues
were replaced in the meantime; and an end that was made to wait stops reading there and nowhere
else.

What an owner wrote, message by message, is its `Draft`. It is told by the trace: a message that was
rolled back before its last frame is in no queue and in no draft. A draft does not look at any
queue, so it says what *should* arrive.

* `Link.Run.holds`: the draft is what was written and not taken back.
* `Link.Run.drained`: once the delimiter is consumed (`Link.Consumes`), by `read` or by
  `check_read`, all that was completed is read, and the reader has counted as many messages as the
  writer.
* `Link.graceful_drain`: so it stays, whatever is done later; and a reader made with delay, whose
  owner does not ask to terminate, gets out of reading in this way alone, so it is drained before
  its end is notified.
* `Link.graceful_drain_through_hiccup`: a writer that terminates at its watermark, with a message
  that was not flushed, one that was not finished, and a notice underway.

There is no premise on mailboxes. That a patient reader comes to the delimiter at all needs open
ones, and is a matter of `Proofs/Convergence`.
-/

namespace MessagePipe

open Function (update)

/-! ## Drafts -/

/-- What an owner wrote, message by message. -/
structure Draft where
  /-- The frames of the complete messages, in order. -/
  complete : List Frame := []
  /-- The frames of a message that is not complete. -/
  unfinished : List Frame := []

/-- A frame without the *more* flag completes the message it belongs to. -/
def Draft.add (d : Draft) (f : Frame) : Draft :=
  if f.hasMore then { d with unfinished := d.unfinished ++ [f] }
  else { complete := d.complete ++ d.unfinished ++ [f] }

/-- The draft after a call that came to `result`. -/
def Call.drafted (d : Draft) (result : Except Fault Reply) : Call → Draft
  | .rollback => { d with unfinished := [] }
  | c => (c.accepted result).foldl Draft.add d

/-- The draft of side `s` after a further step. -/
def Link.Step.drafted (s : Side) (d : Draft) : Link.Step × Link.Report → Draft
  | (.call s' c, r) => if s' = s then c.drafted d r.result else d
  | _ => d

/-- What the owner of side `s` wrote, message by message. -/
def Link.Trace.draft (s : Side) (tr : Link.Trace) : Draft :=
  tr.foldl (Link.Step.drafted s) {}

theorem Link.Trace.draft_concat (s : Side) (tr : Link.Trace) (e : Link.Step × Link.Report) :
    draft s (tr ++ [e]) = Link.Step.drafted s (draft s tr) e := by
  simp [draft]

theorem Link.Step.drafted_of_ne {s : Side} {e : Link.Step × Link.Report} (h : e.1.side ≠ s)
    (d : Draft) : Link.Step.drafted s d e = d := by
  obtain ⟨step, r⟩ := e
  cases step with
  | call s' c => exact if_neg h
  | _ => rfl

/-- The draft after an endpoint reacted. -/
def Stimulus.drafted (d : Draft) (r : Reaction) : Stimulus → Draft
  | .call c => c.drafted d r.result
  | .command _ => d

theorem Call.drafted_of_look {c : Call} {e : Reply} (h : c.emptyReply = some e) (d : Draft)
    (result : Except Fault Reply) : c.drafted d result = d := by
  cases c with
  | read | checkRead => rfl
  | _ => cases h

/-- A draft and a queue take a frame alike. -/
theorem Draft.add_write {d : Draft} {s : Segments Frame} (h : d.unfinished = s.fragments)
    (f : Frame) :
    (d.add f).complete ++ (s.write f f.hasMore).fragments = d.complete ++ s.fragments ++ [f] ∧
      (d.add f).unfinished = (s.write f f.hasMore).fragments := by
  unfold Draft.add Segments.write
  cases f.hasMore with
  | true => simp [h]
  | false => simp [h]

/-- As long as an end feeds a queue, it wrote the complete messages of its draft and the fragments
in the queue, and in operation these are what its draft leaves unfinished. -/
def Draft.Holds (d : Draft) (p : Pipe) (v : View) (written : List Frame) : Prop :=
  ∀ q, p.outbound = some q → written = d.complete ++ (v q).fragments ∧
    (p.state = .active → d.unfinished = (v q).fragments)

section Reacts

variable {p : Pipe} {v : View} {st : Stimulus} {r : Reaction}

/-- Only an end in operation writes. -/
theorem Reacts.complete_of_not_active (h : Reacts p v st r) (hs : p.state ≠ .active) (d : Draft) :
    (st.drafted d r).complete = d.complete := by
  cases h with
  | writeAccepted hf ho hs' => exact absurd hs' hs
  | lookIdle hc | lookDry hc | lookDelimiter hc =>
    exact congrArg Draft.complete (Call.drafted_of_look hc d _)
  | _ => rfl

theorem Reacts.msgsWritten_of_not_active (h : Reacts p v st r) (hs : p.state ≠ .active) :
    r.pipe.msgsWritten = p.msgsWritten := by
  cases h with
  | writeAccepted hf ho hs' => exact absurd hs' hs
  | _ => rfl

end Reacts

namespace Pair

variable {x : Pair} {s : Side} {st : Stimulus} {r : Reaction} {left : List Command} {d : Draft}

/-- What a reaction stages is in the draft and in the queue that is fed. -/
theorem Sound.holds_self (h : Sound x) (hd : x.due s = st.taken ++ left)
    (hr : Reacts (x.pipe s) x.view st r) (hold : d.Holds (x.pipe s) x.view (x.written s)) :
    (st.drafted d r).Holds r.pipe r.view (st.sent (x.written s) r) := by
  -- The queues an end reads from are not the one it feeds.
  have hin : ∀ {q q' : QueueId} (c : Segments Frame), (x.pipe s).inbound = some q →
      (x.pipe s).outbound = some q' → update x.view q c q' = x.view q' := fun c hi ho =>
    Function.update_of_ne (h.outbound_ne_inbound ho hi) ..
  have hsig : ∀ {sg : Signal} {s' : State} {a : Action}, (x.pipe s).state.on sg = some (s', a) →
      ∀ {v : View} {q : QueueId}, ((x.pipe s).signalled s' a).outbound = some q →
        (∀ {q : QueueId}, (x.pipe s).outbound = some q → v q = x.view q) →
        x.written s = d.complete ++ (v q).fragments ∧
          (s' = .active → d.unfinished = (v q).fragments) := fun hon v q hq hv => by
    have hq' := Pipe.outbound_of_signalled hq
    rw [hv hq']
    exact ⟨(hold q hq').1, fun ha => absurd ha (State.on_ne_active hon)⟩
  intro q hq
  cases hr with
  | @writeAccepted f q' hf ho hs hn hq' =>
    obtain rfl : q' = q := Option.some.inj (hq'.symm.trans hq)
    obtain ⟨hw, ha⟩ := hold q' hq'
    obtain ⟨hc, hu⟩ := Draft.add_write (ha hs) f
    rw [Stimulus.sent, List.rdrop_zero, hw]
    dsimp only
    rw [Function.update_self]
    exact ⟨hc.symm, fun _ => hu⟩
  | @flush q' hs hq' =>
    obtain rfl : q' = q := Option.some.inj (hq'.symm.trans hq)
    rw [sent_call rfl, List.rdrop_zero]
    dsimp only
    rw [Function.update_self, Segments.fragments_flush]
    exact hold q' hq'
  | @rollback q' hq' hall =>
    obtain rfl : q' = q := Option.some.inj (hq'.symm.trans hq)
    rw [sent_call rfl, (hold q' hq').1]
    dsimp only
    rw [Function.update_self, List.rdrop_append_length]
    exact ⟨(List.append_nil _).symm, fun _ => rfl⟩
  | rollbackFault hq' hall =>
    obtain ⟨g, rfl, -, hflow⟩ := h.flows_of_outbound hq'
    cases hall.symm.trans hflow.sane.all_hasMore
  | @terminate d' s' a q' hon ha hq' hall =>
    obtain rfl : q' = q := Option.some.inj (hq'.symm.trans hq)
    rw [sent_call rfl, (hold q' (Pipe.outbound_of_signalled hq')).1]
    dsimp only
    rw [Function.update_self, Segments.flush_ended, List.rdrop_append_length]
    exact ⟨(List.append_nil _).symm, fun hs => absurd hs (State.on_ne_active hon)⟩
  | terminateReleased hon ha hq' => cases hq'.symm.trans hq
  | terminateFault hon ha hq' hall =>
    obtain ⟨g, rfl, -, hflow⟩ := h.flows_of_outbound (Pipe.outbound_of_signalled hq')
    cases hall.symm.trans hflow.sane.all_hasMore
  | lookIdle hc hm =>
    rw [sent_of_look hc _ rfl, Stimulus.drafted, Call.drafted_of_look hc]
    exact hold q hq
  | lookDry hc hm hi hv =>
    rw [sent_of_look hc _ rfl, Stimulus.drafted, Call.drafted_of_look hc]
    dsimp only
    rw [hin _ hi hq]
    exact hold q hq
  | lookDelimiter hc hm hi hv hf hon =>
    rw [sent_of_look hc _ rfl, Stimulus.drafted, Call.drafted_of_look hc]
    exact hsig hon hq (hin _ hi)
  | readFrame hm hi hv hf =>
    rw [sent_of_look (c := .read) rfl _ rfl]
    dsimp only
    rw [hin _ hi hq]
    exact hold q hq
  | hiccup hs hi =>
    obtain ⟨g, rfl, -⟩ := h.flows_of_outbound hq
    rw [sent_call rfl, List.rdrop_zero]
    dsimp only
    rw [h.wired.id, Function.update_of_ne (inbound_ne s _ g).symm]
    exact hold _ hq
  | pipeTerm hon => exact hsig hon hq fun _ => rfl
  | pipeTermAck hi hon => exact hsig hon hq (hin _ hi)
  | hiccupMoved hs hq' =>
    -- What is moved keeps its fragments.
    obtain rfl := Option.some.inj hq
    dsimp only
    rw [Function.update_self, Segments.fragments_flush, h.moved_of_notice hd hq']
    exact hold _ hq'
  | hiccupUnflushed hs hq' => cases h.agrees.outbound_of_terminating hs ▸ hq'
  | rollbackNothing hq' => cases hq'.symm.trans hq
  | _ =>
    simpa [Stimulus.sent, Stimulus.drafted, Call.drafted, Call.accepted, List.rdrop_zero] using
      hold q hq

/-- What an end wrote is left alone by the other one. -/
theorem Sound.holds_other (h : Sound x) (hd : x.due s = st.taken ++ left)
    (hr : Reacts (x.pipe s) x.view st r) {written : List Frame}
    (hold : d.Holds (x.pipe s.other) x.view written) :
    d.Holds (x.pipe s.other) r.view written := by
  intro q hq
  rw [(h.staged hd hr hq).2]
  exact hold q hq

end Pair

namespace Link

variable {config : Config} {a b : Plan} {may : Link → Step → Prop} {tr : Trace} {l : Link}
  {s : Side}

/-! ## Drafts along a run -/

theorem Step.drafted_of_quiet {step : Step} {s : Side} (h : ∀ c, step ≠ .call s c) (d : Draft)
    (rep : Report) : Step.drafted s d (step, rep) = d := by
  cases step with
  | call s' c => exact if_neg fun hs : s' = s => h c (hs ▸ rfl)
  | _ => rfl

section Took

variable {st : Stimulus} {r : Reaction} {rep : Report} {l' : Link} {step : Step}

theorem Took.drafted (ht : Took l s st r rep l')
    (hst : (∃ c, step = .call s c ∧ st = .call c) ∨ step = .deliver s ∧ ∃ c, st = .command c)
    (d : Draft) : Step.drafted s d (step, rep) = st.drafted d r := by
  rcases hst with ⟨c, rfl, rfl⟩ | ⟨rfl, c, rfl⟩
  · rw [Step.drafted, if_pos rfl, ht.result]
    rfl
  · rfl

end Took

/-- **The draft of a side holds wherever a run comes to.** -/
theorem Run.holds (h : Run config a b may tr l) (s : Side) :
    (tr.draft s).Holds (l.side s).pipe l.view (tr.sent s) := by
  induction h with
  | fresh h =>
    obtain ⟨log, rfl⟩ := eq_of_create h
    exact fun q _ => ⟨rfl, fun _ => rfl⟩
  | @step tr l step h hs ih =>
    obtain ⟨x, hf, hx⟩ := h.exists_sound
    rw [Trace.draft_concat]
    rcases l.step_cases step with ⟨s', st, r, hst, ht⟩ | ⟨hn, hk, -⟩
    · obtain ⟨left, hd, hr, hf'⟩ := hf.took ht hst
      rcases s'.eq_or_eq_other s with rfl | rfl
      · rw [← hf.pipe, ← hf.view, ← hf.written] at ih
        rw [ht.own, ht.view, ht.drafted hst, ← hf'.written, Pair.written_after_self]
        exact hx.holds_self hd hr ih
      · rw [← hf.pipe, ← hf.view, ← hf.written] at ih
        rw [ht.peer, ht.view, ← hf'.written, Pair.written_after_other, ← hf.pipe,
          Step.drafted_of_ne (by rw [side_of_stimulus hst]; exact s'.other_ne.symm)]
        exact hx.holds_other hd hr ih
    · obtain ⟨k, i, hp, -⟩ := hk.pipe s
      rw [hp, hk.view, Trace.sent_concat, Step.sent_of_quiet (hn s),
        Step.drafted_of_quiet (hn s)]
      exact ih

/-! ## Streams that were drained -/

/-- An end that is out of reading reads nothing, and stays out of it. -/
theorem step_of_unreadable (hr : (l.side s).pipe.state.isReadable = false) (step : Step) :
    Step.received s (step, (l.step step).1) = [] ∧
      ((l.step step).2.side s).pipe.msgsRead = (l.side s).pipe.msgsRead ∧
      ((l.step step).2.side s).pipe.state.isReadable = false := by
  rcases l.step_cases_at step s with ⟨st, r, hst, ht⟩ | ha
  · rw [ht.received hst, ht.own]
    exact ⟨ht.reacts.received_of_unreadable hr, ht.reacts.msgsRead_of_unreadable hr,
      ht.reacts.unreadable_of_unreadable hr⟩
  · obtain ⟨k, i, hp⟩ := ha.pipe
    rw [hp, Step.received_of_quiet ha.quiet]
    exact ⟨rfl, rfl, hr⟩

/-- An end out of operation completes no message, and stays out of it. -/
theorem step_of_not_active (hs : (l.side s).pipe.state ≠ .active) (step : Step) (d : Draft) :
    (Step.drafted s d (step, (l.step step).1)).complete = d.complete ∧
      ((l.step step).2.side s).pipe.msgsWritten = (l.side s).pipe.msgsWritten ∧
      ((l.step step).2.side s).pipe.state ≠ .active := by
  rcases l.step_cases_at step s with ⟨st, r, hst, ht⟩ | ha
  · rw [ht.drafted hst, ht.own]
    exact ⟨ht.reacts.complete_of_not_active hs d, ht.reacts.msgsWritten_of_not_active hs,
      ht.reacts.not_active hs⟩
  · obtain ⟨k, i, hp⟩ := ha.pipe
    rw [hp, Step.drafted_of_quiet ha.quiet]
    exact ⟨rfl, rfl, hs⟩

/-- Side `s` is out of reading, its peer out of operation, and everything the peer completed was
read. -/
structure Drained (tr : Trace) (l : Link) (s : Side) : Prop where
  frames : tr.received s = (tr.draft s.other).complete
  count : (l.side s).pipe.msgsRead = (l.side s.other).pipe.msgsWritten
  reader : (l.side s).pipe.state.isReadable = false
  writer : (l.side s.other).pipe.state ≠ .active

/-- A stream that was drained stays so. -/
theorem Drained.step (h : Drained tr l s) (step : Step) :
    Drained (tr ++ [(step, (l.step step).1)]) (l.step step).2 s := by
  obtain ⟨hnone, hread, hreader⟩ := step_of_unreadable h.reader step
  obtain ⟨hcomplete, hwritten, hwriter⟩ := step_of_not_active h.writer step (tr.draft s.other)
  refine ⟨?_, ?_, hreader, hwriter⟩
  · rw [Trace.received_concat, Trace.draft_concat, hnone, List.append_nil, hcomplete, h.frames]
  · rw [hread, hwritten, h.count]

theorem Drained.run (h : Drained tr l s) (steps : List Step) :
    Drained (tr ++ steps.zip (l.run steps).1) (l.run steps).2 s :=
  run_along (P := fun tr l => Drained tr l s) steps (fun step _ h => h.step step) h

/-- The owner of side `s` looks for a frame, and its pipe comes to the delimiter. -/
def Consumes (l : Link) (s : Side) (step : Step) : Prop :=
  (step = .call s .read ∨ step = .call s .checkRead) ∧ (l.side s).pipe.AtDelimiter l.view

/-- Behind the delimiter there is nothing, and before it everything that was completed. -/
theorem Run.received_of_delimiter (h : Run config a b may tr l)
    (hd : (l.side s).pipe.AtDelimiter l.view) :
    tr.received s = (tr.draft s.other).complete ∧
      (l.side s).pipe.msgsRead = (l.side s.other).pipe.msgsWritten ∧
      (l.side s.other).pipe.state = .terminated := by
  obtain ⟨x, hf, hx, ht⟩ := h.exists_tallied
  have hd' : (x.pipe s).AtDelimiter x.view := by rw [hf.pipe, hf.view]; exact hd
  have hr : (x.pipe s).state.isReadable = true := (Bool.and_eq_true_iff.1 hd'.1).2
  have hob := hx.obtained_of_delimiter hd'
  have hterm := hx.terminated_of_delimiter hd'
  -- The queue that is fed ends with the delimiter, so no fragment is left in it.
  obtain ⟨g, -, ho⟩ := hx.fed_of_readable hr
  obtain ⟨g', hg, -, hflow⟩ := hx.flows_of_outbound ho
  rw [Side.other_other] at hg
  obtain rfl : g = g' := (QueueId.inbound.inj hg).2
  obtain ⟨fs, -, -, -, hfr⟩ := hflow.ended (by rw [Pair.lane_other]; exact hr) hterm
  have hfr : (l.view (.inbound s.id g)).fragments = [] := by
    rw [← hf.view, ← hfr, Pair.lane_other]
  have hsent := (h.holds s.other _ (by rw [← hf.pipe]; exact ho)).1
  rw [hfr, List.append_nil] at hsent
  refine ⟨?_, ?_, ?_⟩
  · rw [← hf.obtained, hob, hf.written, hsent]
  · rw [← hf.pipe, ← hf.pipe, ht.read, ht.written, hob]
  · rw [← hf.pipe]
    exact hterm

/-- **Whoever consumes the delimiter has read every complete message.** -/
theorem Run.drained (h : Run config a b may tr l) {step : Step} (hc : l.Consumes s step) :
    Drained (tr ++ [(step, (l.step step).1)]) (l.step step).2 s := by
  obtain ⟨hlook, hd⟩ := hc
  obtain ⟨hframes, hcount, hwriter⟩ := h.received_of_delimiter hd
  obtain ⟨c, rfl, hc⟩ : ∃ c, step = .call s c ∧ (c = .read ∨ c = .checkRead) := by
    rcases hlook with rfl | rfl
    · exact ⟨_, rfl, .inl rfl⟩
    · exact ⟨_, rfl, .inr rfl⟩
  obtain ⟨r, ht⟩ := l.took_call s c
  have hst : (∃ c', Step.call s c = .call s c' ∧ Stimulus.call c = .call c') ∨
      Step.call s c = .deliver s ∧ ∃ c', Stimulus.call c = .command c' := .inl ⟨c, rfl, rfl⟩
  obtain ⟨hrec, s', a', hon, hp⟩ := ht.reacts.of_delimiter hc hd
  refine ⟨?_, ?_, ?_, ?_⟩
  · rw [Trace.received_concat, Trace.draft_concat, ht.received hst, hrec, List.append_nil,
      Step.drafted_of_ne (show (Step.call s c).side ≠ s.other from s.other_ne.symm), hframes]
  · rw [ht.own, ht.peer, hp]
    exact hcount
  · rw [ht.own, hp]
    by_contra hr
    exact (State.isReadable_of_on hon (Bool.of_not_eq_false hr)).2.1 rfl
  · rw [ht.peer, hwriter]
    decide

/-! ## Readers that wait -/

/-- A patient reader that its owner does not ask to terminate leaves off reading at the delimiter
alone. -/
theorem consumes_of_unreadable {step : Step} (hn : ∀ d, step ≠ .call s (.terminate d))
    (hd : (l.side s).pipe.delay = true) (hs : (l.side s).pipe.state.isReadable = true)
    (hr : ((l.step step).2.side s).pipe.state.isReadable = false) : l.Consumes s step := by
  rcases l.step_cases_at step s with ⟨st, r, hst, ht⟩ | ha
  · rw [ht.own] at hr
    have hn' : ∀ d, st ≠ .call (.terminate d) := fun d he => by
      rcases hst with ⟨c, rfl, rfl⟩ | ⟨rfl, c, rfl⟩
      · cases he
        exact hn d rfl
      · cases he
    obtain ⟨hlook, hat⟩ := ht.reacts.atDelimiter_of_unreadable hn' hd hs hr
    refine ⟨?_, hat⟩
    rcases hst with ⟨c, rfl, rfl⟩ | ⟨rfl, c, rfl⟩
    · exact hlook.imp (fun he => by cases he; rfl) fun he => by cases he; rfl
    · rcases hlook with he | he <;> cases he
  · obtain ⟨k, i, hp⟩ := ha.pipe
    rw [hp] at hr
    cases hs.symm.trans hr

theorem delay_step {step : Step} (hn : ∀ d, step ≠ .call s (.terminate d)) :
    ((l.step step).2.side s).pipe.delay = (l.side s).pipe.delay := by
  rcases l.step_cases_at step s with ⟨st, r, hst, ht⟩ | ha
  · rw [ht.own]
    refine ht.reacts.delay fun d he => ?_
    rcases hst with ⟨c, rfl, rfl⟩ | ⟨rfl, c, rfl⟩
    · cases he
      exact hn d rfl
    · cases he
  · obtain ⟨k, i, hp⟩ := ha.pipe
    rw [hp]

/-- Side `s` was told to wait, and has read everything if it is out of reading. -/
structure Patient (tr : Trace) (l : Link) (s : Side) : Prop where
  delay : (l.side s).pipe.delay = true
  drained : (l.side s).pipe.state.isReadable = false → Drained tr l s

/-- It waits on as long as its owner does not ask to terminate. -/
theorem Patient.step (hp : Patient tr l s) (h : Run config a b may tr l) {step : Step}
    (hn : ∀ d, step ≠ .call s (.terminate d)) :
    Patient (tr ++ [(step, (l.step step).1)]) (l.step step).2 s where
  delay := (delay_step hn).trans hp.delay
  drained hr := by
    cases hread : (l.side s).pipe.state.isReadable with
    | true => exact h.drained (consumes_of_unreadable hn hp.delay hread hr)
    | false => exact (hp.drained hread).step step

/-- **A reader that was told to wait stays so, and has read everything once it is out of
reading.** -/
theorem Run.patient (h : Run config a b may tr l) (hd : (planOf a b s).options.delay = true)
    (hn : ∀ d rep, (Step.call s (.terminate d), rep) ∉ tr) : Patient tr l s := by
  induction h with
  | fresh h =>
    obtain ⟨log, rfl⟩ := eq_of_create h
    cases s with
    | a => exact ⟨hd, fun hr => by cases hr⟩
    | b => exact ⟨hd, fun hr => by cases hr⟩
  | @step tr l step h hs ih =>
    refine (ih fun d rep hm => hn d rep (List.mem_append_left _ hm)).step h ?_
    rintro d rfl
    exact hn d _ (List.mem_append_right _ (List.mem_singleton_self _))

/-- The end of an endpoint is notified in a step of its owner, once it is out of reading. -/
theorem unreadable_of_terminated {step : Step} (hs : step.side = s)
    (ht : .terminated ∈ Effect.events (l.step step).1.effects) :
    (l.side s).pipe.state.isReadable = false := by
  rcases l.step_cases step with ⟨s', st, r, hst, htook⟩ | ⟨-, -, he, -⟩
  · obtain rfl := (side_of_stimulus hst).symm.trans hs
    rw [htook.notified] at ht
    exact htook.reacts.unreadable_of_terminated ht
  · rw [he] at ht
    cases ht

/-- **A stream is read to its end.** From the step on in which the delimiter is consumed, the frames
that were read are those of the complete messages the other owner wrote, and both ends count as
many messages. A reader that was told to wait and is not asked to terminate leaves off reading in
this way alone, so its end is notified after all of that was read. -/
theorem graceful_drain (h : Run config a b may tr l) (s : Side) :
    (∀ step, l.Consumes s step → ∀ steps,
      Drained (tr ++ (step :: steps).zip (l.run (step :: steps)).1)
        (l.run (step :: steps)).2 s) ∧
    ((planOf a b s).options.delay = true →
      (∀ d rep, (Step.call s (.terminate d), rep) ∉ tr) →
        (∀ step, (∀ d, step ≠ .call s (.terminate d)) →
          (l.side s).pipe.state.isReadable = true →
          ((l.step step).2.side s).pipe.state.isReadable = false → l.Consumes s step) ∧
        ∀ step, step.side = s → .terminated ∈ Effect.events (l.step step).1.effects →
          Drained tr l s) := by
  refine ⟨fun step hc steps => ?_, fun hd hn => ⟨fun step hstep hs hr => ?_, fun step hs ht => ?_⟩⟩
  · have := (h.drained hc).run steps
    rw [run_cons, List.zip_cons_cons, List.append_cons]
    exact this
  · exact consumes_of_unreadable hstep (h.patient hd hn).1 hs hr
  · exact (h.patient hd hn).2 (unreadable_of_terminated hs ht)

/-- The writer terminates with a message published, one complete and not published, and one begun,
and the reader replaces its queue meanwhile. -/
theorem graceful_drain_through_hiccup :
    ∃ (tr : Trace) (l : Link), OpenRun {} { options := {} } { options := { hwm := 3 } } tr l ∧
      l.Consumes .b (.call .b .read) ∧
      (∀ steps, Drained (tr ++ (.call .b .read :: steps).zip (l.run (.call .b .read :: steps)).1)
        (l.run (.call .b .read :: steps)).2 .b) ∧
      tr.received .b = [.ofBytes ⟨#[1]⟩, .ofBytes ⟨#[2]⟩] ∧
      ∃ (tr' : Trace) (l' : Link),
        OpenRun {} { options := {} } { options := { hwm := 3 } } tr' l' ∧
        .terminated ∈ Effect.events (l'.step (.deliver .b)).1.effects ∧ Drained tr' l' .b := by
  have h : OpenRun {} { options := {} } { options := { hwm := 3 } } _ _ := run_of_steps rfl
    [.call .a (.write (.ofBytes ⟨#[1]⟩)), .call .a .flush,
      .call .a (.write (.ofBytes ⟨#[2]⟩)), .call .b .hiccup, .deliver .a,
      .call .a (.write (.withMore (.ofBytes ⟨#[3]⟩))), .call .a (.terminate false), .deliver .b,
      .call .b .read, .call .b .read]
    ⟨rfl, rfl, rfl, rfl, rfl, rfl, rfl, rfl, rfl, rfl, trivial⟩
  have h' := h.append [.call .b .read, .deliver .a, .deliver .a] ⟨rfl, rfl, rfl, trivial⟩
  refine ⟨_, _, h, ?hc, (graceful_drain h .b).1 _ ?hc, by decide, _, _, h', by decide,
    ((graceful_drain h' .b).2 rfl fun d rep hm => ?hn).2 (.deliver .b) rfl (by decide)⟩
  case hc =>
    exact ⟨.inl rfl, by decide, .inbound ⟨2⟩ 1, .delimiter, [], by decide, by decide, by decide⟩
  case hn =>
    rcases List.mem_append.1 hm with hm | hm
    · exact absurd (List.of_mem_zip hm).1 (by cases d <;> decide)
    · exact absurd (List.of_mem_zip hm).1 (by cases d <;> decide)

end Link

end MessagePipe
