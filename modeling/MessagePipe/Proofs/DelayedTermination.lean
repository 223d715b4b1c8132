import MessagePipe.Proofs.Confluence
import MessagePipe.Proofs.Looking
import MessagePipe.Proofs.MidMessage

/-!
# What an end reads that terminates with delay

An end can be asked to terminate and to read first what its peer sent (`terminate`: with delay set,
messages the peer already sent are still read before the pipe goes away). It does so where the peer
asked before: then it is pending, stays so, and leaves off reading at the delimiter alone. An end in
operation is out of reading as soon as it is asked, whatever its queue holds: the table of §4.3 of
the specification leads to `terminated`, which is not readable. The request to wait is kept, and
nothing looks at it any more.

* `Link.Patient.run`: an end that waits goes on doing so, or has read everything.
* `Link.Run.peer_of_pending`: the peer of a pending end has asked to terminate, so its delimiter is
  behind all it wrote, in the queue or on its way (`Proofs/Handshake`, `Proofs/Stream`).
* `Link.Patient.read_rest`: once all commands are taken, reading on gives all that is left.
* `Link.terminate_delayed`: so a pending end reads everything before its end is notified, and an end
  in operation reads nothing more, whatever its owner does but to read and to take commands.
* `Link.terminate_discards`: the shortest run in which an end in operation loses what was published
  to it. One message is written and flushed, the other end terminates with delay, and its next read
  gives nothing; when the acknowledgment arrives, the message is dropped.

Premise: open mailboxes. Out of scope: owners who terminate again in between, for which see
`Proofs/AskingAgain`.
-/

namespace MessagePipe

/-! ## Asking to terminate -/

/-- Whoever is asked to terminate takes the signal, and keeps in mind whether to wait. -/
theorem Reacts.of_terminate {p : Pipe} {v : View} {d : Bool} {r : Reaction}
    (h : Reacts p v (.call (.terminate d)) r) :
    r.pipe.delay = d ∧ ∃ a, p.state.on (.terminate d) = some (r.pipe.state, a) := by
  cases h with
  | lookIdle hc | lookDry hc | lookDelimiter hc => cases hc
  | terminateIgnored hon =>
    obtain rfl := Turn.on_terminate_ignore hon
    exact ⟨rfl, _, hon⟩
  | terminateReleased hon => exact ⟨rfl, _, hon⟩
  | terminate hon => exact ⟨rfl, _, hon⟩
  | terminateFault hon => exact ⟨rfl, _, hon⟩

/-- The peer of a pending end asked to terminate. -/
theorem Meet.of_pending {x y : Stance} (h : Meet x y) (hx : x.state = .pending) :
    y.state = .terminated := by
  rcases h with h | h
  · cases h <;> cases hx
  · cases h with
    | pending => rfl
    | asked hs => rcases hs with rfl | rfl <;> cases hx
    | _ => cases hx

namespace Segments

/-- All of a finished stream is published. -/
theorem Finished.published_eq {s : Segments Frame} (h : s.Finished) : s.published = s.complete := by
  obtain ⟨fs, -, -, hr, -⟩ := h
  rw [published, complete, hr, List.append_nil]

/-- A read answers every frame of a finished stream by the frame, and then finds nothing. -/
theorem Finished.answers {s : Segments Frame} (h : s.Finished) :
    s.visible.map (fun f => (.ok f.answer : Except Fault Reply)) =
      s.published.map (fun f => .ok (.frame f)) ++ [.ok .nothing] := by
  obtain ⟨fs, hv, hd, -, -⟩ := h
  have hp : s.published = fs := by
    rw [published, hv, List.filter_append]
    simpa using hd
  rw [hp, hv, List.map_append]
  congr 1
  exact List.map_congr_left fun f hf => by rw [Frame.answer, hd f hf]; rfl

end Segments

namespace Link

variable {config : Config} {a b : Plan} {may : Link → Step → Prop} {tr : Trace} {l : Link}
  {s : Side}

/-! ## Further steps -/

/-- Who takes commands reads nothing. -/
theorem Trace.received_deliveries (s : Side) (order : List Side) (reports : List Report) :
    received s ((order.map Step.deliver).zip reports) = [] := by
  refine List.flatMap_eq_nil_iff.2 fun e he => ?_
  obtain ⟨s', -, hs'⟩ := List.mem_map.1 (List.of_mem_zip he).1
  exact Step.received_of_quiet (by rw [← hs']; rintro _ ⟨⟩) e.2

theorem permits_deliveries (l : Link) (order : List Side) :
    Permits (fun _ step => step.keepsOpen = true) l (order.map .deliver) := by
  induction order generalizing l with
  | nil => trivial
  | cons s order ih => exact ⟨rfl, ih _⟩

theorem received_run_of_unreadable (tr : Trace) (hr : (l.side s).pipe.state.isReadable = false)
    (steps : List Step) : (tr ++ steps.zip (l.run steps).1).received s = tr.received s := by
  refine (run_along (P := fun tr' l' => tr'.received s = tr.received s ∧
    (l'.side s).pipe.state.isReadable = false) steps (fun step _ h => ?_) ⟨rfl, hr⟩).1
  obtain ⟨hnone, -, hr'⟩ := step_of_unreadable h.2 step
  exact ⟨by rw [Trace.received_concat, hnone, List.append_nil, h.1], hr'⟩

theorem complete_run (tr : Trace) (hs : (l.side s).pipe.state ≠ .active) (steps : List Step) :
    ((tr ++ steps.zip (l.run steps).1).draft s).complete = (tr.draft s).complete ∧
      ((l.run steps).2.side s).pipe.state ≠ .active := by
  refine run_along (P := fun tr' l' => (tr'.draft s).complete = (tr.draft s).complete ∧
    (l'.side s).pipe.state ≠ .active) steps (fun step _ h => ?_) ⟨rfl, hs⟩
  obtain ⟨hcomplete, -, hs'⟩ := step_of_not_active h.2 step (Trace.draft s _)
  exact ⟨by rw [Trace.draft_concat, hcomplete, h.1], hs'⟩

/-! ## Readers that wait -/

/-- **An end that waits goes on doing so, or has read everything.** -/
theorem Patient.run (hp : Patient tr l s) (h : Run config a b may tr l) (steps : List Step)
    (hn : ∀ d, .call s (.terminate d) ∉ steps) :
    Patient (tr ++ steps.zip (l.run steps).1) (l.run steps).2 s := by
  refine (run_along (P := fun tr l => Run config a b (fun _ _ => True) tr l ∧ Patient tr l s) steps
    (fun step hm hp => ?_) ⟨h.trivially, hp⟩).2
  exact ⟨hp.1.step trivial, hp.2.step hp.1 fun d he => hn d (he ▸ hm)⟩

/-- The peer of a pending end is out of operation. -/
theorem Run.peer_of_pending (h : Run config a b may tr l)
    (hs : (l.side s).pipe.state = .pending) : (l.side s.other).pipe.state ≠ .active := by
  obtain ⟨x, hf, hx⟩ := h.exists_sound
  rw [← hf.pipe] at hs ⊢
  rw [show (x.pipe s.other).state = _ from (hx.agrees.meet s).of_pending hs]
  decide

/-- The stream of an end that left operation is finished, as long as its peer reads. -/
theorem Run.finished (h : Run config a b may tr l) (hr : (l.side s).pipe.state.isReadable = true)
    (hw : (l.side s.other).pipe.state ≠ .active) :
    ∃ q, (l.side s.other).pipe.outbound = some q ∧ (l.view q).Finished := by
  obtain ⟨x, hf, hx⟩ := h.exists_sound
  rw [← hf.pipe] at hr hw
  obtain ⟨g, hg, ho⟩ := hx.fed_of_readable hr
  obtain ⟨-, hst | hst⟩ := (hx.agrees.meet s).of_readable hr
  · exact absurd hst hw
  have hflow := (hx.lanes s.other).flows g hg
  have hended := hflow.ended (by rw [Pair.lane_other]; exact hr) hst
  rw [Pair.lane_other] at hended
  rw [← hf.pipe, ← hf.view]
  exact ⟨_, ho, hended⟩

/-- What was read and what is left of a finished stream is all that was completed. -/
theorem Run.received_published (h : Run config a b may tr l) {q : QueueId}
    (hq : (l.side s.other).pipe.outbound = some q) (hended : (l.view q).Finished) :
    tr.received s ++ (l.view q).published = (tr.draft s.other).complete := by
  have hall := h.complete hq
  rw [Side.other_other] at hall
  rw [hended.published_eq, hall]

/-- **Reading on gives all that is left.** Once all commands are taken, an end that waits reads the
rest of what its peer completed, and then nothing. -/
theorem Patient.read_rest (hp : Patient tr l s) (h : OpenRun config a b tr l)
    (hw : (l.side s.other).pipe.state ≠ .active) (ht : l.AllTaken) :
    ∃ fs : List Frame, tr.received s ++ fs = (tr.draft s.other).complete ∧
      (l.run (List.replicate (fs.length + 1) (.call s .read))).1.map Report.result =
        fs.map (fun f => .ok (.frame f)) ++ [.ok .nothing] := by
  cases hr : (l.side s).pipe.state.isReadable with
  | true =>
    obtain ⟨q, hq, hended⟩ := h.finished hr hw
    have hsettled : Settled l s q :=
      ⟨hr, hq, by rw [ht s]; exact List.not_mem_nil, fun w r => by
        rw [ht s.other]; exact List.not_mem_nil⟩
    have hlen : (l.view q).visible.length = (l.view q).published.length + 1 := by
      simpa using congrArg List.length hended.answers
    refine ⟨(l.view q).published, h.received_published hq hended, ?_⟩
    rw [← hlen, (hsettled.run_read h rfl).1, hended.answers]
  | false =>
    refine ⟨[], by rw [List.append_nil]; exact (hp.drained hr).frames, ?_⟩
    have hread := read_of_not_mayRead (l := l) (s := s) (by rw [Pipe.mayRead, hr, Bool.and_false])
    change [(l.call s .read).1.result] = _
    rw [hread]
    rfl

/-- The deliveries before that change nothing of it. -/
theorem Patient.read_rest_after (hp : Patient tr l s) (h : OpenRun config a b tr l)
    (hw : (l.side s.other).pipe.state ≠ .active) {order : List Side}
    (ht : (l.deliverAll order).AllTaken) :
    ∃ fs : List Frame, tr.received s ++ fs = (tr.draft s.other).complete ∧
      ((l.deliverAll order).run (List.replicate (fs.length + 1) (.call s .read))).1.map
        Report.result = fs.map (fun f => .ok (.frame f)) ++ [.ok .nothing] := by
  have hs := l.permits_deliveries order
  have hn : ∀ d, .call s (.terminate d) ∉ order.map Step.deliver := by simp
  obtain ⟨hcomplete, hw'⟩ := complete_run tr hw (order.map Step.deliver)
  obtain ⟨fs, hfs, hreads⟩ := (hp.run h _ hn).read_rest (h.append _ hs) hw' ht
  rw [hcomplete, Trace.received_append, Trace.received_deliveries, List.append_nil] at hfs
  exact ⟨fs, hfs, hreads⟩

/-! ## Ends that are asked -/

/-- A pending end that is asked to terminate with delay waits. -/
theorem patient_of_pending (hs : (l.side s).pipe.state = .pending) (tr : Trace) :
    Patient (tr ++ [(.call s (.terminate true), (l.step (.call s (.terminate true))).1)])
      (l.step (.call s (.terminate true))).2 s := by
  obtain ⟨r, ht⟩ := l.took_call s (.terminate true)
  obtain ⟨hdelay, act, hon⟩ := ht.reacts.of_terminate
  rw [hs] at hon
  have hstate : State.pending = r.pipe.state := congrArg Prod.fst (Option.some.inj hon)
  constructor
  · rw [ht.own, hdelay]
  · intro hr
    rw [ht.own, ← hstate] at hr
    cases hr

/-- An end in operation that is asked to terminate reads nothing from then on. -/
theorem received_of_active (tr : Trace) (hs : (l.side s).pipe.state = .active) (d : Bool)
    (steps : List Step) :
    (tr ++ (Step.call s (.terminate d) :: steps).zip
      (l.run (.call s (.terminate d) :: steps)).1).received s = tr.received s := by
  obtain ⟨r, ht⟩ := l.took_call s (.terminate d)
  obtain ⟨-, act, hon⟩ := ht.reacts.of_terminate
  rw [hs] at hon
  have hstate : State.terminated = r.pipe.state := congrArg Prod.fst (Option.some.inj hon)
  have hr : ((l.step (.call s (.terminate d))).2.side s).pipe.state.isReadable = false := by
    rw [ht.own, ← hstate]
    rfl
  have hnone : Step.received s (.call s (.terminate d), (l.step (.call s (.terminate d))).1) = [] :=
    if_pos rfl
  rw [run_cons, List.zip_cons_cons, List.append_cons, received_run_of_unreadable _ hr steps,
    Trace.received_concat, hnone, List.append_nil]

/-- **What terminating with delay does.** A pending end that is asked to terminate with delay, and
not asked again, reads everything that was published to it: whatever else is done, its end is
notified after all of that was read, and whenever all commands are taken, reading on gives the rest
of it. An end in operation that is asked so reads nothing more. -/
theorem terminate_delayed (h : OpenRun config a b tr l) (s : Side) (steps : List Step)
    (hs : Permits (fun _ step => step.keepsOpen = true) l (.call s (.terminate true) :: steps))
    (hn : ∀ d, .call s (.terminate d) ∉ steps) :
    let all : List Step := .call s (.terminate true) :: steps
    let tr' := tr ++ all.zip (l.run all).1
    let l' := (l.run all).2
    ((l.side s).pipe.state = .pending →
      ∃ q, (l.side s.other).pipe.outbound = some q ∧
        (∀ step, step.side = s → .terminated ∈ Effect.events (l'.step step).1.effects →
          tr'.received s = tr.received s ++ (l.view q).published) ∧
        (∃ order, (l'.deliverAll order).AllTaken) ∧
        ∀ order, (l'.deliverAll order).AllTaken → ∃ fs : List Frame,
          tr'.received s ++ fs = tr.received s ++ (l.view q).published ∧
          ((l'.deliverAll order).run (List.replicate (fs.length + 1) (.call s .read))).1.map
            Report.result = fs.map (fun f => .ok (.frame f)) ++ [.ok .nothing]) ∧
    ((l.side s).pipe.state = .active → tr'.received s = tr.received s) := by
  intro all tr' l'
  have h' : OpenRun config a b tr' l' := h.append all hs
  refine ⟨fun hpending => ?_, fun hactive => ?_⟩
  · -- The peer has completed all it will, and that is what was read and what is published.
    have hw := h.peer_of_pending hpending
    obtain ⟨q, hq, hended⟩ := h.finished (by rw [hpending]; rfl) hw
    obtain ⟨hcomplete, hw'⟩ := complete_run tr hw all
    have hp : Patient tr' l' s := by
      have := (patient_of_pending hpending tr).run (h.step rfl) steps hn
      rwa [← List.append_cons] at this
    refine ⟨q, hq, ?_⟩
    rw [h.received_published hq hended, ← hcomplete]
    refine ⟨fun step hside hterm => ?_, l'.exists_allTaken, fun order ht =>
      hp.read_rest_after h' hw' ht⟩
    exact (hp.drained (unreadable_of_terminated hside hterm)).frames
  · exact received_of_active tr hactive true steps

/-- The reader replaced its queue, is pending with two messages unread, and is asked to terminate
with delay. It has read the first one when it takes the next command. -/
theorem terminate_delayed_while_pending :
    ∃ (tr : Trace) (l : Link), OpenRun {} { options := {} } { options := {} } tr l ∧
      (l.side .b).pipe.state = .pending ∧
      (l.view (.inbound ⟨2⟩ 1)).published = [.ofBytes ⟨#[1]⟩, .ofBytes ⟨#[2]⟩] ∧
      let l' := (l.run [.call .b (.terminate true), .call .b .read]).2
      (l'.deliverAll []).AllTaken ∧
      ((l'.deliverAll []).run (List.replicate 2 (.call .b .read))).1.map Report.result =
        [.ok (.frame (.ofBytes ⟨#[2]⟩)), .ok .nothing] := by
  have h : OpenRun {} { options := {} } { options := {} } _ _ := run_of_steps rfl
    [.call .a (.write (.ofBytes ⟨#[1]⟩)), .call .a .flush, .call .b .hiccup, .deliver .a,
      .call .a (.write (.ofBytes ⟨#[2]⟩)), .call .a (.terminate false), .deliver .b]
    ⟨rfl, rfl, rfl, rfl, rfl, rfl, rfl, trivial⟩
  refine ⟨_, _, h, by decide, by decide, fun s => by cases s <;> decide, ?_⟩
  obtain ⟨q, hq, -, -, hrest⟩ := (terminate_delayed h .b [.call .b .read] ⟨rfl, rfl, trivial⟩
    (by simp)).1 (by decide)
  obtain rfl : q = .inbound ⟨2⟩ 1 := (Option.some.inj hq).symm
  obtain ⟨fs, hfs, hreads⟩ := hrest [] fun s => by cases s <;> decide
  obtain rfl : fs = [.ofBytes ⟨#[2]⟩] := (List.cons.inj hfs).2
  exact hreads

/-- **An end in operation does not wait:** asked to terminate with delay, it is told that its
end has come, and the message that was published to it before is still unread. -/
theorem terminate_discards :
    ¬∀ (config : Config) (a b : Plan) (tr : Trace) (l : Link) (s : Side) (q : QueueId)
      (steps : List Step) (step : Step), OpenRun config a b tr l →
      (l.side s).pipe.state = .active ∨ (l.side s).pipe.state = .pending →
      (l.side s.other).pipe.outbound = some q →
      Permits (fun _ step => step.keepsOpen = true) l (.call s (.terminate true) :: steps) →
      (∀ d, .call s (.terminate d) ∉ steps) →
      let all : List Step := .call s (.terminate true) :: steps
      step.side = s → .terminated ∈ Effect.events ((l.run all).2.step step).1.effects →
      tr.received s ++ (l.view q).published <+: (tr ++ all.zip (l.run all).1).received s := by
  intro h
  have hrun : OpenRun {} { options := {} } { options := {} } _ _ := run_of_steps rfl
    [.call .a (.write (.ofBytes ⟨#[1]⟩)), .call .a .flush] ⟨rfl, rfl, trivial⟩
  have hread := h _ _ _ _ _ .b (.inbound ⟨2⟩ 0)
    [.call .b .read, .deliver .a, .call .a .read, .call .b .read] (.deliver .b) hrun (by decide)
    (by decide) ⟨rfl, rfl, rfl, rfl, rfl, trivial⟩ (by simp) rfl (by decide)
  exact absurd hread (by decide)

end Link

end MessagePipe
