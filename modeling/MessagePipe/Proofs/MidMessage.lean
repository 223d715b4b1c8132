import MessagePipe.Proofs.Drain
import MessagePipe.Proofs.WakeUp

/-!
# Messages are published whole

Frames become visible to the peer in three ways: by a flush, by the delimiter of an end that
terminates, and by a queue that is replaced (§4.1, §4.3 and §11.3 of the specification). Each
publishes all complete messages and no fragment, so what a reader obtained and can still obtain ends
with a message at any time. An owner who was given a fragment can therefore go on reading, without
waiting for anybody.

* `Pair.Sound.publishes`: whatever an end does, it publishes all that is complete, or nothing.
* `Link.Run.published`: so the published stream ends with a message (`Whole`), wherever a run comes
  to. It is compared with the writer's draft (`Proofs/Drain`), of which all complete messages are
  whole.
* `Pair.Attends`: a reader looks for frames, in the queue its peer feeds. `react_self` and
  `react_other` are its step lemmas: it goes on doing so until it replaces the queue or leaves off
  reading.
* `Link.Run.attends`: a reader in the middle of a message attends to its stream.
* `Link.message_continues`: so the next frame of the message is there, and the next read gives it.
* `Link.message_continues_to_its_end`: a writer that terminates in the middle of its next message.

Premises: the owner did not replace its inbound queue since, and the end is still in reading. Where
it did replace it, the rest of the message is on its way, and `Proofs/WakeUp` says what the reader
is told. Nothing is asked of the mailboxes.

Out of scope: that the frame is the one the writer meant, which is `Proofs/Delivery`.
-/

namespace MessagePipe

open Function (update)

/-! ## Complete messages -/

/-- The frames an owner obtains without a further flush. -/
def Segments.published (s : Segments Frame) : List Frame :=
  s.visible.filter fun f => !f.isDelimiter

/-- The frames an owner obtains after a further flush. -/
def Segments.complete (s : Segments Frame) : List Frame :=
  (s.visible ++ s.ready).filter fun f => !f.isDelimiter

theorem Segments.Sane.data_eq {s : Segments Frame} (h : s.Sane) :
    s.data = s.complete ++ s.fragments := by
  rw [data, all, List.filter_append, h.filter_fragments, complete]

theorem Draft.whole_add {d : Draft} (h : Whole d.complete) (f : Frame) :
    Whole (d.add f).complete := by
  unfold Draft.add
  split
  · exact h
  · next hf => exact whole_concat.2 (Bool.eq_false_of_not_eq_true hf)

theorem Call.whole_drafted {d : Draft} (h : Whole d.complete) (result : Except Fault Reply)
    (c : Call) : Whole (c.drafted d result).complete := by
  have hfold : ∀ fs : List Frame, Whole (fs.foldl Draft.add d).complete := fun fs => by
    induction fs using List.reverseRecOn with
    | nil => exact h
    | append_singleton fs f ih =>
      rw [List.foldl_concat]
      exact Draft.whole_add ih f
  cases c with
  | rollback => exact h
  | _ => exact hfold _

/-- The complete messages of a draft end with a message. -/
theorem Link.Trace.whole_draft (s : Side) (tr : Link.Trace) : Whole (tr.draft s).complete := by
  induction tr using List.reverseRecOn with
  | nil => exact whole_nil
  | append_singleton tr e ih =>
    obtain ⟨step, rep⟩ := e
    rw [draft_concat]
    cases step with
    | call s' c =>
      show Whole (if s' = s then c.drafted (draft s tr) rep.result else draft s tr).complete
      split
      · exact c.whole_drafted ih _
      · exact ih
    | _ => exact ih

/-! ## Publishing -/

namespace Pair

section Sound

variable {x : Pair} {s : Side} {st : Stimulus} {r : Reaction} {left : List Command}

/-- **An end publishes all that is complete, or nothing.** -/
theorem Sound.publishes (h : Sound x) (hd : x.due s = st.taken ++ left)
    (hr : Reacts (x.pipe s) x.view st r) {q' : QueueId} (hq : r.pipe.outbound = some q') :
    ∃ q, (x.pipe s).outbound = some q ∧
      ((r.view q').published = (x.view q).published ∨
        (r.view q').published = (x.view q).complete) := by
  have hkept : ∀ {v : View}, (x.pipe s).outbound = some q' →
      (v q').visible = (x.view q').visible → ∃ q, (x.pipe s).outbound = some q ∧
        ((v q').published = (x.view q).published ∨ (v q').published = (x.view q).complete) :=
    fun ho hv => ⟨q', ho, .inl (by rw [Segments.published, hv]; rfl)⟩
  -- What happens to the queue an end reads from is nothing to the one it feeds.
  have hin : ∀ {q : QueueId} (c : Segments Frame), (x.pipe s).inbound = some q →
      (x.pipe s).outbound = some q' → ((update x.view q c) q').visible = (x.view q').visible :=
    fun c hi ho => by rw [Function.update_of_ne (h.outbound_ne_inbound ho hi)]
  cases hr with
  | @writeAccepted f q hf ho hs hn ho' =>
    obtain rfl : q = q' := Option.some.inj (ho'.symm.trans hq)
    exact hkept hq (by dsimp only; rw [Function.update_self, Segments.visible_write])
  | @flush q hs ho =>
    obtain rfl : q = q' := Option.some.inj (ho.symm.trans hq)
    refine ⟨q, hq, .inr ?_⟩
    dsimp only
    rw [Function.update_self, Segments.published, Segments.visible_flush, Segments.complete]
  | @rollback q ho | @rollbackFault q ho =>
    obtain rfl : q = q' := Option.some.inj (ho.symm.trans hq)
    exact hkept hq (by dsimp only; rw [Function.update_self])
  | @terminate d s' a q hon ha ho =>
    obtain rfl : q = q' := Option.some.inj (ho.symm.trans hq)
    refine ⟨q, Pipe.outbound_of_signalled ho, .inr ?_⟩
    dsimp only
    rw [Function.update_self, Segments.flush_ended]
    simp [Segments.published, Segments.complete, Frame.isDelimiter_delimiter]
  | @terminateFault d s' a q hon ha ho =>
    obtain rfl : q = q' := Option.some.inj (ho.symm.trans hq)
    exact hkept (Pipe.outbound_of_signalled ho) (by dsimp only; rw [Function.update_self])
  | terminateReleased hon ha ho => cases ho.symm.trans hq
  | lookDry hc hm hi => exact hkept hq (hin _ hi hq)
  | lookDelimiter hc hm hi =>
    exact hkept (Pipe.outbound_of_signalled hq) (hin _ hi (Pipe.outbound_of_signalled hq))
  | readFrame hm hi => exact hkept hq (hin _ hi hq)
  | hiccup hs hi =>
    obtain ⟨g, rfl, -⟩ := h.flows_of_outbound hq
    refine hkept hq ?_
    dsimp only
    rw [h.wired.id, Function.update_of_ne (inbound_ne s _ g).symm]
  | pipeTerm hon => exact hkept (Pipe.outbound_of_signalled hq) rfl
  | @pipeTermAck q s' a hi hon =>
    have ho : (x.pipe s).outbound = some q' := Pipe.outbound_of_signalled (s := s') (a := a) hq
    exact hkept ho (hin _ hi ho)
  | @hiccupMoved w r old hs ho =>
    obtain rfl := Option.some.inj hq
    refine ⟨old, ho, .inr ?_⟩
    dsimp only
    rw [Function.update_self, Segments.published, Segments.visible_flush, h.moved_of_notice hd ho]
    rfl
  | hiccupUnflushed hs ho => cases h.agrees.outbound_of_terminating hs ▸ ho
  | _ => exact hkept hq rfl

end Sound

/-! ## Readers that look where frames arrive -/

/-- Side `s` looks for frames, in the queue its peer feeds. -/
structure Attends (pipe : Side → Pipe) (s : Side) : Prop where
  mayRead : (pipe s).mayRead = true
  fed : (pipe s.other).outbound = some (.inbound s.id (pipe s).generation)

namespace Attends

variable {x : Pair} {s : Side} {st : Stimulus} {r : Reaction} {left : List Command}

theorem readable {pipe : Side → Pipe} (h : Attends pipe s) :
    (pipe s).state.isReadable = true :=
  (Bool.and_eq_true_iff.1 h.mayRead).2

/-- **A reader that finds something in its queue goes on looking there,** until it replaces the
queue or leaves off reading. -/
theorem react_self (ha : Attends x.pipe s) (h : Sound x) (hr : Reacts (x.pipe s) x.view st r)
    (hv : (x.view (.inbound s.id (x.pipe s).generation)).visible ≠ [])
    (hn : st ≠ .call .hiccup) (hread : r.pipe.state.isReadable = true) :
    Attends (x.after s st r left).pipe s := by
  have hi := h.inbound_of_readable ha.readable
  have hlook : r.pipe.inActive = true := by
    have hactive := (Bool.and_eq_true_iff.1 ha.mayRead).1
    cases hr with
    | readClosed _ hi' => cases hi'.symm.trans hi
    | lookDry _ _ hi' hv' =>
      obtain rfl := Option.some.inj (hi'.symm.trans hi)
      exact absurd hv' hv
    | hiccup | activateRead => rfl
    | _ => exact hactive
  constructor
  · rw [pipe_after_self, Pipe.mayRead, hlook, hread]
    rfl
  · rw [pipe_after_self, pipe_after_other, hr.generation hn]
    exact ha.fed

/-- A peer that leaves it in reading goes on feeding its newest queue. -/
theorem react_other (ha : Attends x.pipe s.other) (h : Sound x) (hd : x.due s = st.taken ++ left)
    (hr : Reacts (x.pipe s) x.view st r) : Attends (x.after s st r left).pipe s.other := by
  have hfed := ha.fed
  rw [Side.other_other] at hfed
  constructor
  · rw [pipe_after_other]
    exact ha.mayRead
  · rw [pipe_after_other, Side.other_other, pipe_after_self]
    rcases hr.outbound_cases with ho | ⟨ho, -⟩ | ⟨w, q, old, rfl, hold, -⟩
    · -- Of a reader that is still in reading, the peer feeds a queue.
      obtain ⟨g, -, hg⟩ := (h.react hd hr).fed_of_readable (s := s.other)
        (by rw [pipe_after_other]; exact ha.readable)
      rw [Side.other_other, pipe_after_self, ho] at hg
      cases hg
    · rw [ho, hfed]
    · -- No notice is underway to an end that feeds the newest queue.
      obtain ⟨g, n, he, -, -, hg, -⟩ := h.wired.of_notice hd hfed
      have := (QueueId.inbound.inj he).2
      omega

end Attends

end Pair

namespace Link

variable {config : Config} {a b : Plan} {may : Link → Step → Prop} {tr : Trace} {l : Link}
  {s : Side}

/-- What the peer obtained, and what it will have obtained after a flush, are the complete messages
of a draft. -/
theorem Run.complete (h : Run config a b may tr l) {q : QueueId}
    (hq : (l.side s).pipe.outbound = some q) :
    tr.received s.other ++ (l.view q).complete = (tr.draft s).complete := by
  obtain ⟨x, hf, hx⟩ := h.exists_sound
  have hq' := hq
  rw [← hf.pipe] at hq'
  obtain ⟨g, rfl, -, hflow⟩ := hx.flows_of_outbound hq'
  have hbooks : x.written s = x.obtained s.other ++ (x.view (.inbound s.other.id g)).data :=
    hflow.books
  have hsane : (x.view (.inbound s.other.id g)).Sane := hflow.sane
  rw [hsane.data_eq, hf.written, hf.obtained, hf.view, (h.holds s _ hq).1,
    ← List.append_assoc] at hbooks
  exact (List.append_cancel_right hbooks).symm

/-- **What was published ends with a message.** -/
theorem Run.published (h : Run config a b may tr l) (s : Side) {q : QueueId}
    (hq : (l.side s).pipe.outbound = some q) :
    Whole (tr.received s.other ++ (l.view q).published) := by
  induction h generalizing q with
  | fresh h =>
    obtain ⟨log, rfl⟩ := eq_of_create h
    exact whole_nil
  | @step tr l step h hs ih =>
    obtain ⟨x, hf, hx⟩ := h.exists_sound
    rcases l.step_cases step with ⟨s', st, r, hst, ht⟩ | ⟨hn, hk, -⟩
    · obtain ⟨left, hd, hr, hf'⟩ := hf.took ht hst
      have hside := side_of_stimulus hst
      rcases s'.eq_or_eq_other s with rfl | rfl
      · -- The writer publishes what is complete, or nothing.
        rw [ht.own] at hq
        rw [ht.view, Trace.received_concat,
          Step.received_of_ne (by rw [hside]; exact s.other_ne.symm), List.append_nil]
        obtain ⟨q₀, hq₀, hp | hp⟩ := hx.publishes hd hr hq
        · rw [hp, hf.view]
          exact ih (hf.pipe s ▸ hq₀)
        · rw [hp, hf.view, h.complete (hf.pipe s ▸ hq₀)]
          exact tr.whole_draft s
      · -- The reader obtains from the head of what is published.
        have hc := (h.step hs).complete hq
        rw [ht.peer] at hq
        rw [Trace.draft_concat, Step.drafted_of_ne (by rw [hside]; exact s'.other_ne.symm),
          ← h.complete hq, ht.view, Segments.complete, Segments.complete, List.filter_append,
          List.filter_append, (hx.staged hd hr (hf.pipe s'.other ▸ hq)).1, hf.view,
          ← List.append_assoc, ← List.append_assoc] at hc
        rw [ht.view]
        exact List.append_cancel_right hc ▸ ih hq
    · obtain ⟨k, i, hp, -⟩ := hk.pipe s
      rw [hp] at hq
      rw [hk.view, Trace.received_concat, Step.received_of_quiet (hn s.other), List.append_nil]
      exact ih hq

/-- A reader in the middle of a message has something to read, and it is no delimiter. -/
theorem Run.exists_frame (h : Run config a b may tr l) {f : Frame}
    (hlast : (tr.received s).getLast? = some f) (hm : f.hasMore = true)
    (ha : Pair.Attends (fun s => (l.side s).pipe) s) :
    ∃ g gs, (l.view (.inbound s.id (l.side s).pipe.generation)).visible = g :: gs ∧
      g.isDelimiter = false := by
  have hopen : ¬Whole (tr.received s) := fun hw => by
    cases (hw f hlast).symm.trans hm
  cases hv : (l.view (.inbound s.id (l.side s).pipe.generation)).visible with
  | nil =>
    have hp := h.published s.other ha.fed
    rw [Side.other_other, Segments.published, hv, List.filter_nil, List.append_nil] at hp
    exact absurd hp hopen
  | cons g gs =>
    refine ⟨g, gs, rfl, ?_⟩
    -- Before a delimiter everything complete was read.
    by_contra hg
    obtain ⟨x, hf, hx⟩ := h.exists_sound
    have hi := hx.inbound_of_readable (s := s) (by rw [hf.pipe]; exact ha.readable)
    rw [hf.pipe] at hi
    have hd := (h.received_of_delimiter
      ⟨ha.mayRead, _, g, gs, hi, hv, Bool.eq_true_of_not_eq_false hg⟩).1
    exact hopen (hd ▸ Trace.whole_draft s.other tr)

/-- A trace that is not empty ends with the last step of its run. -/
theorem Run.of_concat {e : Step × Report} (h : Run config a b may (tr ++ [e]) l) :
    ∃ l₀ step, Run config a b may tr l₀ ∧ e = (step, (l₀.step step).1) ∧ l = (l₀.step step).2 := by
  generalize htr : tr ++ [e] = tr' at h
  cases h with
  | fresh => simp at htr
  | @step tr₀ l₀ step h hs =>
    obtain ⟨rfl, he⟩ := List.append_inj' htr rfl
    exact ⟨l₀, step, h, List.head_eq_of_cons_eq he, rfl⟩

/-- An end that is in reading after a step was so before. -/
theorem readable_of_step {step : Step}
    (h : ((l.step step).2.side s).pipe.state.isReadable = true) :
    (l.side s).pipe.state.isReadable = true := by
  by_contra hr
  rw [(step_of_unreadable (Bool.eq_false_of_not_eq_true hr) step).2.2] at h
  cases h

/-- A reader that obtained a frame attends to its stream. -/
theorem Run.attends_of_read (h : Run config a b may tr l) {f : Frame}
    (hf : (l.step (.call s .read)).1.result = .ok (.frame f)) :
    Pair.Attends (fun s' => ((l.step (.call s .read)).2.side s').pipe) s := by
  obtain ⟨x, hx, hsound⟩ := h.exists_sound
  obtain ⟨r, ht⟩ := l.took_call s .read
  rw [ht.result] at hf
  have hr := ht.reacts
  cases hr with
  | @readFrame q g gs hm hi hv hg =>
    have hread : (x.pipe s).state.isReadable = true := by
      rw [hx.pipe]
      exact (Bool.and_eq_true_iff.1 hm).2
    obtain ⟨n, hn, ho⟩ := hsound.fed_of_readable hread
    have hflow := (hsound.lanes s.other).flows n hn
    rw [Pair.lane_other] at hflow
    -- The queue that gave a frame is the one that is fed.
    obtain rfl := hsound.wired.inbound s q (hx.pipe s ▸ hi)
    obtain rfl : n = (x.pipe s).generation := hflow.eq_current (hx.view ▸ hv)
    constructor
    · rw [ht.own]
      exact hm
    · rw [ht.own, ht.peer, ← hx.pipe, ho, hx.pipe]
      rfl
  | lookIdle hc | lookDry hc | lookDelimiter hc =>
    cases hc
    cases hf
  | readClosed => cases hf

/-- A reader that has something to read goes on attending to its stream, whoever does a step. -/
theorem Run.attends_step (h : Run config a b may tr l) {step : Step}
    (ha : Pair.Attends (fun s => (l.side s).pipe) s)
    (hv : (l.view (.inbound s.id (l.side s).pipe.generation)).visible ≠ [])
    (hn : step ≠ .call s .hiccup)
    (hr : ((l.step step).2.side s).pipe.state.isReadable = true) :
    Pair.Attends (fun s => ((l.step step).2.side s).pipe) s := by
  obtain ⟨x, hx, hsound⟩ := h.exists_sound
  rcases l.step_cases step with ⟨s', st, r, hst, ht⟩ | ⟨-, hk, -⟩
  · obtain ⟨left, hd, hreact, hx'⟩ := hx.took ht hst
    rw [← funext hx.pipe] at ha
    rw [← funext hx'.pipe]
    rcases s'.eq_or_eq_other s with rfl | rfl
    · refine ha.react_self hsound hreact ?_ ?_ (by rwa [ht.own] at hr)
      · rwa [hx.view, hx.pipe]
      · rintro rfl
        rcases hst with ⟨c, he, hc⟩ | ⟨-, c, hc⟩
        · cases hc
          exact hn he
        · cases hc
    · exact ha.react_other hsound hd hreact
  · obtain ⟨k, i, hp, -⟩ := hk.pipe s
    obtain ⟨k', i', hp', -⟩ := hk.pipe s.other
    constructor
    · rw [hp]
      exact ha.mayRead
    · rw [hp, hp']
      exact ha.fed

/-- **A reader in the middle of a message attends to its stream,** unless it replaced its queue or
left off reading. -/
theorem Run.attends {before since : Trace} {rep : Report} {f : Frame}
    (h : Run config a b may (before ++ (.call s .read, rep) :: since) l)
    (hf : rep.result = .ok (.frame f)) (hm : f.hasMore = true)
    (hlast : Trace.received s since = []) (hn : ∀ rep, (.call s .hiccup, rep) ∉ since)
    (hr : (l.side s).pipe.state.isReadable = true) :
    (Trace.received s (before ++ (.call s .read, rep) :: since)).getLast? = some f ∧
      Pair.Attends (fun s => (l.side s).pipe) s := by
  have hreceived : (Trace.received s (before ++ (.call s .read, rep) :: since)).getLast? =
      some f := by
    have hone : Step.received s (.call s .read, rep) = [f] := by
      rw [Step.received, if_pos rfl, hf]
      rfl
    simp [Trace.received, hone, show since.flatMap (Step.received s) = [] from hlast]
  refine ⟨hreceived, ?_⟩
  induction since using List.reverseRecOn generalizing l with
  | nil =>
    obtain ⟨l₀, step, h₀, he, rfl⟩ := h.of_concat
    obtain ⟨rfl, rfl⟩ := Prod.mk.inj he
    exact h₀.attends_of_read hf
  | append_singleton since e ih =>
    rw [Trace.received_concat, List.append_eq_nil_iff] at hlast
    rw [← List.cons_append, ← List.append_assoc] at h hreceived
    obtain ⟨l₀, step, h₀, rfl, rfl⟩ := h.of_concat
    rw [Trace.received_concat, hlast.2, List.append_nil] at hreceived
    have ha := ih h₀ hlast.1 (fun rep hm => hn rep (List.mem_append_left _ hm))
      (readable_of_step hr) hreceived
    obtain ⟨g, gs, hv, -⟩ := h₀.exists_frame hreceived hm ha
    refine h₀.attends_step ha (hv ▸ List.cons_ne_nil g gs) (fun he => ?_) hr
    rw [he] at hn
    exact hn _ (List.mem_append_right _ (List.mem_singleton_self _))

/-- **A message that was begun can be read on.** If the last frame an owner read says that more
frames of its message follow, and the owner did not replace its inbound queue since, the next read
gives a frame, for as long as the end is in reading: whatever the writer publishes, takes back or
moves meanwhile, and also when it terminates in the middle of a message. -/
theorem message_continues {before since : Trace} {rep : Report} {f : Frame}
    (h : Run config a b may (before ++ (.call s .read, rep) :: since) l)
    (hf : rep.result = .ok (.frame f)) (hm : f.hasMore = true)
    (hlast : Trace.received s since = []) (hn : ∀ rep, (.call s .hiccup, rep) ∉ since)
    (hr : (l.side s).pipe.state.isReadable = true) :
    ∃ g, g.isDelimiter = false ∧ (l.step (.call s .read)).1.result = .ok (.frame g) := by
  obtain ⟨hreceived, ha⟩ := h.attends hf hm hlast hn hr
  obtain ⟨g, gs, hv, hg⟩ := h.exists_frame hreceived hm ha
  obtain ⟨x, hx, hsound⟩ := h.exists_sound
  have hi := hsound.inbound_of_readable (s := s) (by rw [hx.pipe]; exact hr)
  rw [hx.pipe] at hi
  obtain ⟨r, ht⟩ := l.took_call s .read
  obtain ⟨hres, -⟩ := ht.reacts.read_head ha.mayRead hi hv
  refine ⟨g, hg, ?_⟩
  rw [ht.result, hres, Frame.answer, hg]
  rfl

/-- The reader replaces its queue, then reads the first frame of a message; the writer begins
another one, publishes, and terminates in the middle of it. -/
theorem message_continues_to_its_end :
    ∃ (tr : Trace) (l : Link), OpenRun {} { options := {} } { options := {} } tr l ∧
      tr.received .b = [(Frame.ofBytes ⟨#[1]⟩).withMore] ∧ (l.side .b).pipe.state = .pending ∧
      ∃ g, g.isDelimiter = false ∧ (l.step (.call .b .read)).1.result = .ok (.frame g) := by
  have h : OpenRun {} { options := {} } { options := {} } _ _ := run_of_steps rfl
    [.call .a (.write (.withMore (.ofBytes ⟨#[1]⟩))), .call .a (.write (.ofBytes ⟨#[2]⟩)),
      .call .b .hiccup, .call .a .flush, .deliver .a]
    ⟨rfl, rfl, rfl, rfl, rfl, trivial⟩
  have h' := h.append
    [.call .b .read, .call .a (.write (.withMore (.ofBytes ⟨#[3]⟩))), .call .a .flush,
      .call .a (.terminate true), .deliver .b, .call .b .checkRead]
    ⟨rfl, rfl, rfl, rfl, rfl, rfl, trivial⟩
  refine ⟨_, _, h', by decide, by decide,
    message_continues (f := .withMore (.ofBytes ⟨#[1]⟩)) h' rfl (by decide) (by decide)
      (fun rep hm => ?_) (by decide)⟩
  exact absurd (List.of_mem_zip hm).1 (by decide)

end Link

end MessagePipe
