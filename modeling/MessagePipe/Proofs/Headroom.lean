import MessagePipe.Proofs.WholeMessages

/-!
# What being told to go on is worth

A writer is told to go on (`write_activated`, §6 of the specification: the peer caught up and the
pipe accepts writes again) with a report it takes while it is marked as not worth writing to, and
nobody tests the watermark again before (`process_activate_write`). None is told in vain: the mark
stands for a watermark that was reached exactly, and the next report is a low watermark of the
reader further than the last one, so that as many messages may follow at once. Later reports only
add to that.

* `Reacts.of_writeActivated`: whom the notice is for: an end in `active`, marked, that takes a
  report.
* `Pair.Tallied.ahead_of_mark`: how far a marked writer is ahead of the report it takes.
* `OpenRun.peersMsgsRead_run`: reports do not go back.
* `Headroom`: room for so many messages more, as an invariant of what follows.
  `Headroom.exists_stages` is the write lemma: a message with room is accepted frame by frame.
* `Link.told_with_headroom`: a writer that was just told has a positive watermark and passes
  `check_write`; it may write as many messages as the low watermark of its peer says, one after the
  other and in any continuation, before it is full again.
* `Link.told_with_headroom_of_two`: a watermark of two, told at the first report.

Premises: open mailboxes, and messages written whole for what is staged. A writer without a
watermark is never told, since nothing ever marks it.

Out of scope: the other direction of the promise, that a writer is told at all
(`Proofs/WriteWakeUp`).
-/

namespace MessagePipe

/-- **Only a report tells an end to go on,** one that is in operation and was marked. -/
theorem Reacts.of_writeActivated {p : Pipe} {v : View} {st : Stimulus} {r : Reaction}
    (h : Reacts p v st r) (hn : .writeActivated ∈ r.events) :
    ∃ n, st = .command (.activateWrite n) ∧ p.state = .active ∧ p.outActive = false ∧
      r.pipe = { p with peersMsgsRead := n, outActive := true } := by
  cases h with
  | activateWrite ho hs => exact ⟨_, rfl, hs, ho, rfl⟩
  | hiccupMoved hs hq =>
    dsimp only at hn
    split at hn <;> simp at hn
  | _ => simp at hn

/-- A marked writer is at its watermark, and a low watermark of its reader below it with the report
that is due next. -/
theorem Pair.Tallied.ahead_of_mark {x : Pair} {s : Side} {n : Nat} {left : List Command}
    (h : Tallied x) (hd : x.due s = .activateWrite n :: left) (hs : (x.pipe s).state = .active)
    (ho : (x.pipe s).outActive = false) :
    0 < (x.pipe s).hwm ∧
      (x.pipe s).msgsWritten + (x.pipe s.other).lwm = n + (x.pipe s).hwm := by
  obtain ⟨hw, hahead⟩ := Pipe.le_of_isFull (h.cached s hs ho)
  have hbound := h.bounded s hw
  have hreported := h.reported s
  rw [hd] at hreported
  have hnext : n = _ := hreported.take.1
  exact ⟨hw, by omega⟩

/-- Of messages one after the other, all but the last are complete before the last frame. -/
theorem messages_flatten {ms : List (List Frame)} (h : ∀ m ∈ ms, IsMessage m) :
    messages ms.flatten = ms.length ∧ messages ms.flatten.dropLast = ms.length - 1 := by
  induction ms using List.reverseRecOn with
  | nil => exact ⟨rfl, rfl⟩
  | append_singleton ms m ih =>
    obtain ⟨hms, hm⟩ := List.forall_mem_append.1 h
    have hlast := List.forall_mem_singleton.1 hm
    rw [List.flatten_append, List.flatten_singleton, List.dropLast_append_of_ne_nil hlast.ne_nil,
      messages_append, messages_append, (ih hms).1, hlast.messages_eq, hlast.messages_dropLast,
      List.length_append, List.length_singleton]
    exact ⟨rfl, rfl⟩

namespace Link

variable {config : Config} {a b : Plan} {tr : Trace} {l : Link} {s : Side}

/-- The last report taken is not taken back. -/
theorem OpenRun.peersMsgsRead_step (h : OpenRun config a b tr l) (step : Step) (s : Side) :
    (l.side s).pipe.peersMsgsRead ≤ ((l.step step).2.side s).pipe.peersMsgsRead := by
  obtain ⟨x, hf, -, ht⟩ := h.exists_tallied
  rcases l.step_cases_at step s with ⟨st, r, -, hturn⟩ | haside
  · rw [hturn.own]
    cases hturn.reacts.counts with
    | wrote hf ho hs hn hq he =>
      subst he
      exact Nat.le_refl _
    | read hf hm hi hv he =>
      subst he
      exact Nat.le_refl _
    | told hp ha hc hv =>
      have hreported := ht.reported s
      rw [hf.due _ (h.receiving _), hturn.inbox, hf.pipe, hf.pipe] at hreported
      have hnext := hreported.take.1
      rw [hp]
      exact hnext ▸ Nat.le_add_right ..
    | neither hc => exact hc.peers.ge
  · obtain ⟨k, i, hp⟩ := haside.pipe
    rw [hp]

/-- **Reports do not go back.** -/
theorem OpenRun.peersMsgsRead_run (h : OpenRun config a b tr l) {steps : List Step}
    (hs : Permits (fun _ s => s.keepsOpen = true) l steps) (s : Side) :
    (l.side s).pipe.peersMsgsRead ≤ ((l.run steps).2.side s).pipe.peersMsgsRead := by
  induction steps generalizing tr l with
  | nil => exact Nat.le_refl _
  | cons step steps ih => exact (h.peersMsgsRead_step step s).trans (ih (h.step hs.1) hs.2)

/-- Side `s` is in operation, and its messages end a low watermark of its peer below its own high
one. -/
structure Headroom (l : Link) (s : Side) : Prop where
  active : (l.side s).pipe.state = .active
  outActive : (l.side s).pipe.outActive = true
  hwm_pos : 0 < (l.side s).pipe.hwm
  lwm_pos : 0 < (l.side s.other).pipe.lwm
  lwm_le : (l.side s.other).pipe.lwm ≤ (l.side s).pipe.hwm
  ahead : (l.side s).pipe.msgsWritten + (l.side s.other).pipe.lwm =
    (l.side s).pipe.peersMsgsRead + (l.side s).pipe.hwm

/-- **Who is told to go on has headroom.** -/
theorem OpenRun.headroom_of_told (h : OpenRun config a b tr l) {step : Step}
    (hn : .writeActivated ∈ Effect.events (l.step step).1.effects) :
    step.keepsOpen = true ∧ Headroom (l.step step).2 step.side := by
  rcases l.step_cases step with ⟨s, st, r, hst, ht⟩ | ⟨-, -, he, -⟩
  · obtain ⟨n, rfl, hs, ho, hpipe⟩ := ht.reacts.of_writeActivated (ht.notified ▸ hn)
    rcases hst with ⟨c, -, hc⟩ | ⟨rfl, -⟩
    · cases hc
    obtain ⟨x, hf, -, htally⟩ := h.exists_tallied
    have hd : x.due s = .activateWrite n :: _ := (hf.due _ (h.receiving _)).trans ht.inbox
    obtain ⟨hw, hahead⟩ := htally.ahead_of_mark hd (by rw [hf.pipe, hs]) (by rw [hf.pipe, ho])
    have hpos := htally.lwm_pos s hw
    have hle := htally.lwm_le s
    simp only [hf.pipe] at hw hahead hpos hle
    refine ⟨rfl, ?_⟩
    constructor <;> simp only [Step.side, ht.own.trans hpipe, ht.peer]
    exacts [hs, hw, hpos, hle, hahead]
  · rw [he] at hn
    cases hn

/-- A low watermark of messages is accepted at once. -/
theorem Headroom.exists_stages (h : Headroom l s) (hr : OpenRun config a b tr l)
    {ms : List (List Frame)} (hms : ∀ m ∈ ms, IsMessage m)
    (hlen : ms.length ≤ (l.side s.other).pipe.lwm) :
    ∃ q held, Stages l s q ms.flatten ms.length held := by
  obtain ⟨x, hf, hx⟩ := hr.exists_sound
  obtain ⟨q, hq⟩ := (hx.agrees.honest s).exists_outbound (by rw [hf.pipe, h.active])
  rw [hf.pipe] at hq
  obtain ⟨hall, hbut⟩ := messages_flatten hms
  have hclean : ∀ f ∈ ms.flatten, f.isDelimiter = false := fun f hmem => by
    obtain ⟨m, hm, hfm⟩ := List.mem_flatten.1 hmem
    exact (hms m hm).clean f hfm
  refine ⟨q, _, hall ▸ stages_of_room hclean h.outActive h.active hq (.inr ?_)⟩
  have := h.ahead
  have := h.lwm_pos
  have := h.lwm_le
  rw [hbut]
  omega

/-- As long as fewer messages were completed since, there is room. -/
theorem Headroom.isFull_run (h : Headroom l s) (hr : OpenRun config a b tr l) {steps : List Step}
    (hp : Permits (fun _ s => s.keepsOpen = true) l steps)
    (hlt : ((l.run steps).2.side s).pipe.msgsWritten <
      (l.side s).pipe.msgsWritten + (l.side s.other).pipe.lwm) :
    ((l.run steps).2.side s).pipe.isFull = false := by
  have hreports := hr.peersMsgsRead_run hp s
  have hhwm := (l.watermarks_run steps s).1
  have := h.ahead
  have := h.hwm_pos
  rw [Pipe.isFull_eq_false_iff]
  omega

/-- **Nobody is told to go on in vain.** A step by which a pipe notifies that writing is possible
again leaves it bounded by a high watermark, and it answers that it may write. As many messages as
its peer's low watermark says are accepted one after the other, frame by frame. And whatever is done
instead, the pipe may write as long as it is in operation and has not completed as many. -/
theorem told_with_headroom (h : OpenRun config a b tr l) (step : Step)
    (hn : .writeActivated ∈ Effect.events (l.step step).1.effects) :
    let s := step.side
    let l₁ := (l.step step).2
    0 < (l₁.side s).pipe.hwm ∧ 0 < (l₁.side s.other).pipe.lwm ∧
    (l₁.step (.call s .checkWrite)).1.result = .ok (.flag true) ∧
    (∀ ms : List (List Frame), (∀ m ∈ ms, IsMessage m) → ms.length ≤ (l₁.side s.other).pipe.lwm →
      ∃ q held, Stages l₁ s q ms.flatten ms.length held) ∧
    ∀ steps, Permits (fun _ s => s.keepsOpen = true) l₁ steps →
      let l₂ := (l₁.run steps).2
      (l₂.side s).pipe.state = .active →
      (l₂.side s).pipe.msgsWritten <
        (l₁.side s).pipe.msgsWritten + (l₁.side s.other).pipe.lwm →
      (l₂.step (.call s .checkWrite)).1.result = .ok (.flag true) := by
  intro s l₁
  obtain ⟨hopen, hroom⟩ := h.headroom_of_told hn
  have h₁ : OpenRun config a b _ l₁ := h.step hopen
  have hlater : ∀ steps, Permits (fun _ s => s.keepsOpen = true) l₁ steps →
      ((l₁.run steps).2.side s).pipe.state = .active →
      ((l₁.run steps).2.side s).pipe.msgsWritten <
        (l₁.side s).pipe.msgsWritten + (l₁.side s.other).pipe.lwm →
      ((l₁.run steps).2.step (.call s .checkWrite)).1.result = .ok (.flag true) :=
    fun steps hp hactive hlt => by
      rw [(h₁.append steps hp).checkWrite_answer, decide_eq_true
        ⟨hactive, hroom.isFull_run h₁ hp hlt⟩]
  exact ⟨hroom.hwm_pos, hroom.lwm_pos,
    hlater [] trivial hroom.active (Nat.lt_add_of_pos_right hroom.lwm_pos),
    fun ms hms hlen => hroom.exists_stages h₁ hms hlen, hlater⟩

/-- A pipe whose stream was moved to a new queue may have three messages ahead, and is told to go on
once two of them are read and reported. Two messages follow, one of them of two frames. -/
theorem told_with_headroom_of_two :
    ∃ (tr : Trace) (l : Link),
      OpenRun {} { options := {} } { options := { hwm := 3 } } tr l ∧
      let f : Frame := .ofBytes .empty
      let l₁ := (l.step (.deliver .a)).2
      (l₁.side .b).pipe.lwm = 2 ∧
      .writeActivated ∈ Effect.events (l.step (.deliver .a)).1.effects ∧
      (l₁.step (.call .a .checkWrite)).1.result = .ok (.flag true) ∧
      (∃ q held, Stages l₁ .a q [f.withMore, f, f] 2 held) ∧
      ((l₁.run [.call .a (.write f), .deliver .b]).2.step (.call .a .checkWrite)).1.result =
        .ok (.flag true) := by
  let f : Frame := .ofBytes .empty
  have h : OpenRun {} { options := {} } { options := { hwm := 3 } } _ _ := run_of_steps rfl
    [.call .b .hiccup, .deliver .a, .call .a (.write f), .call .a (.write f), .call .a (.write f),
      .call .a .checkWrite, .call .a .flush, .call .b .read, .call .b .read]
    ⟨rfl, rfl, rfl, rfl, rfl, rfl, rfl, rfl, rfl, trivial⟩
  obtain ⟨-, -, hcheck, hstages, hlater⟩ :=
    told_with_headroom h (.deliver .a) (by decide)
  refine ⟨_, _, h, by decide, by decide, hcheck, hstages [[f.withMore, f], [f]] ?_ (by decide),
    hlater [.call .a (.write f), .deliver .b] ⟨rfl, rfl, trivial⟩ (by decide) (by decide)⟩
  have hone : IsMessage [f] := .last (by decide) (by decide)
  exact List.forall_mem_cons.2
    ⟨.more (by decide) (by decide) hone, List.forall_mem_singleton.2 hone⟩

end Link

end MessagePipe
