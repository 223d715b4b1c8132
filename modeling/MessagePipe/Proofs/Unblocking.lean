import MessagePipe.Proofs.Tally

/-!
# Reading unblocks a writer

Writers that hit the watermark wait for `activate-write` (§5 of the specification). A writer takes
the report for granted: the low watermark of its peer is at most its own high one, so that the
messages it has ahead are enough to make the peer report, and every report that arrives leaves room
for one more. If one of the two failed, a pair whose reader reads everything could stand still.

* `Pair.Tallied.room_of_report`: whoever took a report is not at its watermark. What was written
  beyond the report before is bounded, and this report is one low watermark further.
* `Link.readIn`: how many messages a side reads to the end in further steps.
* `step_of_msgsRead_lt`: the count of messages read grows with a read only, by one, and is reported
  when it is due.
* `exists_crossing`: something that is below a bound first and not below it in the end gets there in
  one step. With it, that step is the read that reports.
* `Link.unblocked_by_reading`: where no report is underway, the queue holds the messages that make
  the peer send one, at the latest when it has read a low watermark more; and once that report
  arrives, the writer may go on.
* `Link.unblocked_by_reading_through_hiccup`: a stream that is moved on between the two messages
  that fill a pipe.

Premises: open mailboxes, and a watermark; for the writer to go on, that it is still in operation.

Out of scope: that the sink is told, which fails where a queue is replaced in between
(`Proofs/WriteWakeUp`), and how many messages it may go on with (`Proofs/Headroom`).
-/

namespace MessagePipe

section Reacts

variable {p : Pipe} {v : View} {r : Reaction}

/-- The answer is of the state and of the watermark. -/
theorem Reacts.checkWrite_answer (h : Reacts p v (.call .checkWrite) r) (hp : p.Cached) :
    r.result = .ok (.flag (decide (p.state = .active ∧ p.isFull = false))) := by
  rcases h.checkWrite_outcome with ⟨rfl, hs, -, hn⟩ | ⟨o, rfl, hno⟩
  · rw [decide_eq_true ⟨hs, hn⟩]
  · rw [decide_eq_false]
    rintro ⟨hs, hn⟩
    obtain ⟨-, ho | hfull⟩ := hno.resolve_left fun hne => hne hs
    · cases hn.symm.trans (hp hs ho)
    · cases hn.symm.trans hfull

/-- Writing is turned down by an endpoint in operation for its watermark alone. -/
theorem Reacts.isFull_of_checkWrite (h : Reacts p v (.call .checkWrite) r) (hp : p.Cached)
    (hs : p.state = .active) (hr : r.result = .ok (.flag false)) : p.isFull = true := by
  by_contra hn
  rw [h.checkWrite_answer hp, decide_eq_true ⟨hs, Bool.of_not_eq_true hn⟩] at hr
  cases hr

/-- What an endpoint that takes a report knows from then on. -/
theorem Reacts.told {n : Nat} (h : Reacts p v (.command (.activateWrite n)) r) :
    r.pipe.peersMsgsRead = n ∧ r.pipe.msgsWritten = p.msgsWritten ∧ r.pipe.state = p.state := by
  cases h <;> exact ⟨rfl, rfl, rfl⟩

end Reacts

namespace Pair

variable {x : Pair} {s : Side} {r : Reaction} {left : List Command} {n : Nat}

/-- **Every report that is taken leaves room for a message.** -/
theorem Tallied.room_of_report (h : Tallied x) (hd : x.due s = .activateWrite n :: left)
    (hr : Reacts (x.pipe s) x.view (.command (.activateWrite n)) r) : r.pipe.isFull = false := by
  obtain ⟨hpeers, hwritten, -⟩ := hr.told
  by_contra hf
  obtain ⟨hw, hle⟩ := Pipe.le_of_isFull (Bool.of_not_eq_false hf)
  rw [hr.hwm] at hw hle
  have hreport := h.reported s
  rw [hd] at hreport
  have hnext := hreport.take.1
  have hbound := h.bounded s hw
  have hpos := h.lwm_pos s hw
  omega

end Pair

namespace Link

/-! ## What a side reads in further steps -/

/-- How many messages side `s` reads to the end in further steps. -/
def readIn (l : Link) (s : Side) (steps : List Step) : Nat :=
  messages (Trace.received s (steps.zip (l.run steps).1))

theorem run_append (l : Link) (before after : List Step) :
    (l.run (before ++ after)).2 = ((l.run before).2.run after).2 := by
  induction before generalizing l with
  | nil => rfl
  | cons s before ih =>
    rw [List.cons_append, run_cons, run_cons]
    exact ih _

theorem permits_append {may : Link → Step → Prop} {l : Link} {before after : List Step} :
    Permits may l (before ++ after) ↔
      Permits may l before ∧ Permits may (l.run before).2 after := by
  induction before generalizing l with
  | nil => exact (and_iff_right trivial).symm
  | cons s before ih =>
    rw [List.cons_append, run_cons]
    exact (and_congr_right fun _ => ih).trans and_assoc.symm

/-- Something that is below a bound first and not below it in the end gets there in one step. -/
theorem exists_crossing (f : Link → Nat) {m : Nat} {l : Link} (steps : List Step) (hl : f l < m)
    (hm : m ≤ f (l.run steps).2) :
    ∃ before step after, steps = before ++ step :: after ∧ f (l.run before).2 < m ∧
      m ≤ f ((l.run before).2.step step).2 := by
  induction steps generalizing l with
  | nil => exact absurd hm (Nat.not_le_of_lt hl)
  | cons s steps ih =>
    by_cases hs : m ≤ f (l.step s).2
    · exact ⟨[], s, steps, rfl, hl, hs⟩
    · obtain ⟨before, step, after, rfl, h1, h2⟩ := ih (Nat.lt_of_not_le hs) hm
      exact ⟨s :: before, step, after, rfl, h1, h2⟩

/-- The count of messages read grows with a read only, by one, and is reported when it is due. -/
theorem step_of_msgsRead_lt {l : Link} {step : Step} {s : Side}
    (h : (l.side s).pipe.msgsRead < ((l.step step).2.side s).pipe.msgsRead)
    (ho : (l.side s.other).inbox.receiving = true) :
    step = .call s .read ∧
      ((l.step step).2.side s).pipe.msgsRead = (l.side s).pipe.msgsRead + 1 ∧
      (l.step step).2.commands s.other = l.commands s.other ++
        if (l.side s).pipe.isReportedAt ((l.side s).pipe.msgsRead + 1) then
          [.activateWrite ((l.side s).pipe.msgsRead + 1)] else [] := by
  rcases l.step_cases_at step s with ⟨st, r, hst, ht⟩ | ha
  · rw [ht.own] at h ⊢
    rw [ht.outbox, if_pos ho]
    cases ht.reacts.counts with
    | wrote hf ho' hs hn hq he =>
      rw [he] at h
      exact absurd h (Nat.lt_irrefl _)
    | @read f q fs hf hm hi hv he =>
      rcases hst with ⟨c, rfl, hc⟩ | ⟨-, c, hc⟩ <;> cases hc
      rw [he] at h ⊢
      have hmore : f.hasMore = false := by
        by_contra hmore
        simp [Pipe.counted, Bool.of_not_eq_false hmore] at h
      refine ⟨rfl, by simp [Pipe.counted, hmore], ?_⟩
      rw [show Pipe.report _ f = _ from rfl, Pipe.report, hmore]
      rfl
    | told hp ha hc hv =>
      rw [hp] at h
      exact absurd h (Nat.lt_irrefl _)
    | neither hc =>
      rw [hc.read] at h
      exact absurd h (Nat.lt_irrefl _)
  · obtain ⟨k, i, hp⟩ := ha.pipe
    rw [hp] at h
    exact absurd h (Nat.lt_irrefl _)

/-- The watermarks of a side never change. -/
theorem watermarks_run (l : Link) (steps : List Step) (s : Side) :
    ((l.run steps).2.side s).pipe.hwm = (l.side s).pipe.hwm ∧
      ((l.run steps).2.side s).pipe.lwm = (l.side s).pipe.lwm := by
  induction steps generalizing l with
  | nil => exact ⟨rfl, rfl⟩
  | cons step steps ih =>
    rw [run_cons, (ih _).1, (ih _).2]
    rcases l.step_cases_at step s with ⟨st, r, -, ht⟩ | ha
    · rw [ht.own]
      exact ⟨ht.reacts.hwm, ht.reacts.lwm⟩
    · obtain ⟨k, i, hp⟩ := ha.pipe
      rw [hp]
      exact ⟨rfl, rfl⟩

theorem lwm_run (l : Link) (steps : List Step) (s : Side) :
    ((l.run steps).2.side s).pipe.lwm = (l.side s).pipe.lwm :=
  (l.watermarks_run steps s).2

section Run

variable {config : Config} {a b : Plan} {tr : Trace} {l : Link} {s : Side}

/-- What a side counts as read grows by what it reads. -/
theorem OpenRun.msgsRead_run (h : OpenRun config a b tr l) {steps : List Step}
    (hs : Permits (fun _ s => s.keepsOpen = true) l steps) (s : Side) :
    ((l.run steps).2.side s).pipe.msgsRead = (l.side s).pipe.msgsRead + l.readIn s steps := by
  obtain ⟨x, hf, -, ht⟩ := h.exists_tallied
  obtain ⟨y, hg, -, hu⟩ := (h.append steps hs).exists_tallied
  rw [← hf.pipe, ← hg.pipe, ht.read, hu.read, hf.obtained, hg.obtained, readIn, ← messages_append,
    ← Trace.received_append]

/-- A side answers by its state and its watermark whether it may write. -/
theorem Run.checkWrite_answer {may : Link → Step → Prop} (h : Run config a b may tr l) (s : Side) :
    (l.step (.call s .checkWrite)).1.result = .ok (.flag (decide
      ((l.side s).pipe.state = .active ∧ (l.side s).pipe.isFull = false))) := by
  obtain ⟨x, hf, -, ht⟩ := h.exists_tallied
  obtain ⟨r, hcall⟩ := l.took_call s .checkWrite
  rw [hcall.result, hcall.reacts.checkWrite_answer (hf.pipe s ▸ ht.cached s)]

/-- Whoever takes a report in operation may write. -/
theorem Run.checkWrite_of_report (h : OpenRun config a b tr l)
    (hs : (l.side s).pipe.state = .active) {n : Nat} {left : List Command}
    (hc : l.commands s = .activateWrite n :: left) :
    ((l.step (.deliver s)).2.step (.call s .checkWrite)).1.result = .ok (.flag true) := by
  obtain ⟨x, hf, -, ht⟩ := h.exists_tallied
  obtain ⟨r, hd⟩ := took_deliver hc
  obtain ⟨-, -, hstate⟩ := hd.reacts.told
  have hroom := ht.room_of_report ((hf.due _ (h.receiving _)).trans hc)
    (by rw [hf.pipe, hf.view]; exact hd.reacts)
  have hnext : OpenRun config a b _ (l.step (.deliver s)).2 := h.step rfl
  rw [hnext.checkWrite_answer, hd.own, decide_eq_true ⟨hstate.trans hs, hroom⟩]

/-- **Reading unblocks a writer.** A side in operation that may not write, while no report to it is
underway, has messages ahead of its peer, and at least one. Whatever is done then, the peer sends a
report with the message that completes another low watermark at the latest, and once a side still in
operation takes it, that side may write. -/
theorem unblocked_by_reading (h : OpenRun config a b tr l)
    (ha : (l.side s).pipe.state = .active) (hw : 0 < (l.side s).pipe.hwm)
    (hc : (l.step (.call s .checkWrite)).1.result = .ok (.flag false))
    (hn : ∀ n, .activateWrite n ∉ l.commands s) :
    ((l.side s.other).pipe.lwm ≤ (l.side s).pipe.hwm ∧
        ∃ q, (l.side s).pipe.outbound = some q ∧
          (l.side s).pipe.hwm - (l.side s.other).pipe.lwm + 1 ≤ (l.view q).messages) ∧
      ∀ steps, Permits (fun _ s => s.keepsOpen = true) l steps →
        (l.side s.other).pipe.lwm ≤ l.readIn s.other steps →
        ∃ before after n, steps = before ++ .call s.other .read :: after ∧
          l.readIn s.other (before ++ [.call s.other .read]) ≤ (l.side s.other).pipe.lwm ∧
          (l.run (before ++ [.call s.other .read])).2.commands s =
            (l.run before).2.commands s ++ [.activateWrite n] ∧
          ∀ later left l', Permits (fun _ s => s.keepsOpen = true)
              (l.run (before ++ [.call s.other .read])).2 later →
            l' = ((l.run (before ++ [.call s.other .read])).2.run later).2 →
            l'.commands s = .activateWrite n :: left → (l'.side s).pipe.state = .active →
            ((l'.step (.deliver s)).2.step (.call s .checkWrite)).1.result = .ok (.flag true) := by
  obtain ⟨x, hf, hsound, ht⟩ := h.exists_tallied
  obtain ⟨r, hcall⟩ := l.took_call s .checkWrite
  have hcached := ht.cached s
  rw [hf.pipe] at hcached
  obtain ⟨-, hfull⟩ := Pipe.le_of_isFull
    (hcall.reacts.isFull_of_checkWrite hcached ha (hcall.result.symm.trans hc))
  -- Nothing is reported, so the peer has read less than a low watermark since the last report.
  have hnone : reports (x.due s) = [] := by
    rw [hf.due _ (h.receiving _)]
    exact List.eq_nil_iff_forall_not_mem.2 fun n hm => hn n (mem_reports.1 hm)
  have hpos := ht.lwm_pos s
  have hrep := ht.reported s
  rw [hnone] at hrep
  have hbound := ht.bounded s
  have hle := ht.lwm_le s
  simp only [hf.pipe] at hpos hrep hbound hle
  have hlt := hrep.lt_of_nil (hpos hw)
  refine ⟨⟨hle, ?_⟩, fun steps hs hread => ?_⟩
  · have hh := hsound.agrees.honest s
    rw [Pipe.Honest, hf.pipe, ha] at hh
    obtain ⟨q, hq⟩ := Option.isSome_iff_exists.1 (Option.isNone_eq_false_iff.1 hh)
    have hmessages := hsound.messages_fed ht (s := s) (by rw [hf.pipe]; exact hq)
    simp only [hf.pipe, hf.view] at hmessages
    exact ⟨q, hq, by omega⟩
  · -- The report that is due next is of the message that completes a low watermark.
    obtain ⟨k, -, hk, -⟩ := id hrep
    have htaken := hrep.taken_le
    have hfinal := h.msgsRead_run hs s.other
    obtain ⟨before, step, after, rfl, hbefore, hstep⟩ := exists_crossing
      (fun l => (l.side s.other).pipe.msgsRead) steps hlt (by omega)
    obtain ⟨hs₁, hs₂⟩ := permits_append.1 hs
    have h₁ : OpenRun config a b _ (l.run before).2 := h.append before hs₁
    obtain ⟨rfl, hcount, hsent⟩ :=
      step_of_msgsRead_lt (Nat.lt_of_lt_of_le hbefore hstep) (h₁.receiving _)
    have hlast : (l.run (before ++ [.call s.other .read])).2 =
        ((l.run before).2.step (.call s.other .read)).2 := run_append ..
    have hpermits : Permits (fun _ s => s.keepsOpen = true) l (before ++ [.call s.other .read]) :=
      permits_append.2 ⟨hs₁, rfl, trivial⟩
    have hnow := h.msgsRead_run hpermits s.other
    have hm : ((l.run before).2.side s.other).pipe.msgsRead + 1 =
        (l.side s).pipe.peersMsgsRead + (l.side s.other).pipe.lwm := by omega
    have hdue : ((l.run before).2.side s.other).pipe.isReportedAt
        (((l.run before).2.side s.other).pipe.msgsRead + 1) = true := by
      rw [Pipe.isReportedAt, lwm_run, hm, hk]
      simp [hpos hw]
    rw [if_pos hdue, Side.other_other] at hsent
    rw [hlast] at hnow
    refine ⟨before, after, _, rfl, by omega, by rw [hlast, hsent], ?_⟩
    rintro later left l' hlater rfl hcommands hactive
    exact ((h.append _ hpermits).append later hlater).checkWrite_of_report hactive hcommands

/-- The second of three messages that fill a pipe is reported, also where the stream is moved on
between the first and the second. -/
theorem unblocked_by_reading_through_hiccup :
    ∃ (tr : Trace) (l : Link),
      OpenRun {} { options := {} } { options := { hwm := 3 } } tr l ∧
      (l.side .a).pipe.state = .active ∧ (l.side .a).pipe.hwm = 3 ∧
      (l.side .b).pipe.lwm = 2 ∧ l.commands .a = [] ∧
      (l.step (.call .a .checkWrite)).1.result = .ok (.flag false) ∧
      (∃ q, (l.side .a).pipe.outbound = some q ∧ 2 ≤ (l.view q).messages) ∧
      ∃ before after n,
        [.call .b .read, .call .b .hiccup, .deliver .a, .call .b .read] =
          before ++ .call .b .read :: after ∧
        (l.run (before ++ [.call .b .read])).2.commands .a =
          (l.run before).2.commands .a ++ [.activateWrite n] := by
  have h : OpenRun {} { options := {} } { options := { hwm := 3 } } _ _ := run_of_steps rfl
    [.call .a (.write (.ofBytes ⟨#[1]⟩)), .call .a (.write (.ofBytes ⟨#[2]⟩)),
      .call .a (.write (.ofBytes ⟨#[3]⟩)), .call .a .flush]
    ⟨rfl, rfl, rfl, rfl, trivial⟩
  obtain ⟨⟨-, hq⟩, hsent⟩ := unblocked_by_reading h (s := .a) (by decide) (by decide) (by decide)
    fun n => List.not_mem_nil
  obtain ⟨before, after, n, hsteps, -, hcommands, -⟩ :=
    hsent [.call .b .read, .call .b .hiccup, .deliver .a, .call .b .read]
      ⟨rfl, rfl, rfl, rfl, trivial⟩ (by decide)
  exact ⟨_, _, h, by decide, by decide, by decide, by decide, by decide, hq, before, after, n,
    hsteps, hcommands⟩

end Run

end Link

end MessagePipe
