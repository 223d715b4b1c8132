import MessagePipe.Proofs.Directions

/-!
# Each direction of a pair is on its own

Two runs are compared: one in which both directions are at work, and one that has left out all that
is not about one of them (`Lone`). They have that direction in common, and with it all that a step
about it looks at. So such a step comes to the same in both, and they still have it in common.

The two queues of a pair are allocated apart and each end keeps two halves (§3 and §4.4 of the
specification), so it should be so; what could go wrong is a field that both directions use, or a
command about one that waits behind a command about the other. `Proofs/Directions` says which steps
are about a direction and that the others leave it alone; this module puts them together.

* `CalmRun.deed_of_kept`: a step about a direction depends on nothing else. It is split by what the
  step is: setting an end up (`deed_of_equips`), the half that writes (`CalmRun.deed_of_writes`), or
  the half that reads (`CalmRun.deed_of_reads`).
* `Lone.taken`: where the other direction is silent, the command of a delivery is the oldest one
  there is, and it is the one that the full run takes in its turn.
* `CalmRun.deeds_of_kept`: the same for any number of steps, by induction on them.
* `directions_independent`: whoever leaves the other direction out gets the same results, commands,
  notifications and events heard.
* `directions_independent_of_interleaved`: two owners who both look, write, replace a queue and take
  what arrives.

Premise: neither owner terminates, and both mailboxes stay open.
-/

namespace MessagePipe

open Function (update)

namespace Link

variable {config : Config} {a b : Plan} {tr tr' : Trace} {l l' m : Link} {d s : Side}

/-! ## One step in both runs -/

/-- Nothing is underway but in the direction in which side `d` writes. -/
structure Lone (m : Link) (d : Side) : Prop where
  dueWriter : ∀ c ∈ m.commands d, c.forWriter = true
  dueReader : ∀ c ∈ m.commands d.other, c.forReader = true

theorem Lone.of_create (h : create config a b = .ok l) (d : Side) : Lone l d := by
  obtain ⟨log, rfl⟩ := eq_of_create h
  exact ⟨by cases d <;> exact nofun, by cases d <;> exact nofun⟩

/-- A pair with the direction of another one has the commands underway to the writer. -/
theorem Lone.commands_writer (hm : Lone m d) (heq : m.direction d = l.direction d) :
    m.commands d = (l.commands d).filter CommandOf.forWriter := by
  have hdue : (m.commands d).filter CommandOf.forWriter =
    (l.commands d).filter CommandOf.forWriter := congrArg Direction.dueWriter heq
  rw [← hdue, List.filter_eq_self.2 hm.dueWriter]

/-- A pair with the direction of another one has the commands underway to the reader. -/
theorem Lone.commands_reader (hm : Lone m d) (heq : m.direction d = l.direction d) :
    m.commands d.other = (l.commands d.other).filter CommandOf.forReader := by
  have hdue : (m.commands d.other).filter CommandOf.forReader =
    (l.commands d.other).filter CommandOf.forReader := congrArg Direction.dueReader heq
  rw [← hdue, List.filter_eq_self.2 hm.dueReader]

/-- Where nothing else is underway, a command of the direction is taken in its turn. -/
theorem Lone.taken (hm : Lone m d) (heq : m.direction d = l.direction d) {step : Step}
    (hd : (l.deed step).isOf d = true) : step.taken m = step.taken l := by
  cases step with
  | deliver s =>
    cases hq : l.commands s with
    | nil => simp [Deed.isOf, Deed.stimulus?, deed, Step.taken, hq, Step.equips] at hd
    | cons c left =>
      have hst : (l.deed (.deliver s)).stimulus? = some (.command c) := by
        simp [Deed.stimulus?, deed, Step.taken, hq]
      have hc : (if s = d then c.forWriter else c.forReader) = true :=
        (Deed.isOf_of_some hst).symm.trans hd
      rcases d.eq_or_eq_other s with rfl | rfl
      · rw [if_pos rfl] at hc
        rw [Step.taken, Step.taken, hm.commands_writer heq, hq, List.filter_cons_of_pos hc]
        rfl
      · rw [if_neg d.other_ne] at hc
        rw [Step.taken, Step.taken, hm.commands_reader heq, hq, List.filter_cons_of_pos hc]
        rfl
  | _ => rfl

/-- What a stimulus about the writing half makes of the direction in which a side writes. -/
theorem Took.direction_of_writes {st : Stimulus} {r : Reaction} {rep : Report}
    (ht : Took l s st r rep l') (hl : Steady l) (hst : st.writes = true)
    (hw : r.Writes (l.side s).pipe l.view st) :
    l'.direction s = { l.direction s with
      writing := r.pipe.writing
      queue := fun g => r.view (.inbound s.other.id g)
      dueWriter := (l.direction s).dueWriter.drop st.taken.length
      dueReader := (l.direction s).dueReader ++ r.posted } := by
  unfold direction
  congr 1
  · rw [ht.own]
  · rw [ht.peer]
  · rw [ht.view]
  · rw [ht.inbox, List.filter_append, List.filter_eq_self.2 (Stimulus.forWriter_of_taken hst),
      List.drop_left]
  · rw [ht.outbox, if_pos (hl.receiving _), List.filter_append, List.filter_eq_self.2 hw.posted]
  · exact funext ht.sink
  · exact funext ht.identity
  · exact funext ht.listening

/-- What a stimulus about the reading half makes of the direction in which a side reads. -/
theorem Took.direction_of_reads {st : Stimulus} {r : Reaction} {rep : Report}
    (ht : Took l s st r rep l') (hl : Steady l) (hst : st.reads = true)
    (hr : r.Reads (l.side s).pipe l.view) :
    l'.direction s.other = { l.direction s.other with
      reading := r.pipe.reading
      queue := fun g => r.view (.inbound s.id g)
      dueWriter := (l.direction s.other).dueWriter ++ r.posted
      dueReader := (l.direction s.other).dueReader.drop st.taken.length } := by
  unfold direction
  rw [Side.other_other]
  congr 1
  · rw [ht.peer]
  · rw [ht.own]
  · rw [ht.view]
  · rw [ht.outbox, if_pos (hl.receiving _), List.filter_append, List.filter_eq_self.2 hr.posted]
  · rw [ht.inbox, List.filter_append, List.filter_eq_self.2 (Stimulus.forReader_of_taken hst),
      List.drop_left]
  · exact funext ht.sink
  · exact funext ht.identity
  · exact funext ht.listening

/-- Two turns that look the same from outside come to the same, where the end is equipped the
same. -/
theorem Took.deed_congr {st : Stimulus} {r r' : Reaction} {step : Step}
    (ht : Took l step.side st r (l.step step).1 (l.step step).2)
    (hm : Took m step.side st r' (m.step step).1 (m.step step).2)
    (hs : r'.Same r m.view l.view) (htaken : step.taken m = step.taken l)
    (heq : m.direction d = l.direction d) : m.deed step = l.deed step := by
  have hsink : r'.pipe.sink = r.pipe.sink := by
    rw [hm.reacts.sink, ht.reacts.sink]
    exact congrFun (congrArg Direction.sink heq) step.side
  have hlistening : (m.side step.side).listening = (l.side step.side).listening :=
    congrFun (congrArg Direction.listening heq) step.side
  have hpasses : r'.pipe.passes (m.side step.side).listening =
      r.pipe.passes (l.side step.side).listening := by
    funext e
    rw [Pipe.passes, Pipe.passes, hsink, hlistening]
  rw [hm.deed_eq, ht.deed_eq, htaken, hs.result, hs.posted, hs.events, hpasses]

/-- What is about the writing half of a side comes out the same for any pair with the direction in
which it writes. -/
theorem CalmRun.same_of_writes (h : CalmRun config a b tr l) (hl : Steady l) (hm : Steady m)
    (heq : m.direction s = l.direction s) {st : Stimulus} {r r' : Reaction}
    (hst : st.writes = true) (hq : ∃ left, l.commands s = st.taken ++ left)
    (hr : Reacts (l.side s).pipe l.view st r) (hr' : Reacts (m.side s).pipe m.view st r') :
    r'.Same r m.view l.view ∧ r'.pipe.writing = r.pipe.writing := by
  obtain ⟨left, hq⟩ := hq
  have hview : ∀ q, (l.side s).pipe.Feeds st q → m.view q = l.view q := fun q hf => by
    obtain ⟨g, rfl⟩ := (h.queues hl s).2 q st left hq hf
    exact congrFun (congrArg Direction.queue heq) g
  obtain ⟨r'', h'', hsame, hw⟩ := hr.exists_of_writing hst (congrArg Direction.writing heq)
    ((hm.active s).trans (hl.active s).symm) hview
  cases hr'.unique h''
  exact ⟨hsame, hw⟩

/-- What is about the reading half of a side comes out the same for any pair with the direction in
which it reads. -/
theorem CalmRun.same_of_reads (h : CalmRun config a b tr l) (hl : Steady l) (hm : Steady m)
    (heq : m.direction s.other = l.direction s.other) {st : Stimulus} {r r' : Reaction}
    (hst : st.reads = true)
    (hr : Reacts (l.side s).pipe l.view st r) (hr' : Reacts (m.side s).pipe m.view st r') :
    r'.Same r m.view l.view ∧ r'.pipe.reading = r.pipe.reading := by
  have hreading : (m.side s).pipe.reading = (l.side s).pipe.reading := by
    simpa only [direction, Side.other_other] using congrArg Direction.reading heq
  have hview : ∀ q, (l.side s).pipe.inbound = some q → m.view q = l.view q := fun q hf => by
    obtain ⟨g, rfl⟩ := (h.queues hl s).1 q (.inl hf)
    simpa only [direction, Side.other_other] using congrFun (congrArg Direction.queue heq) g
  obtain ⟨r'', h'', hsame, hw⟩ := hr.exists_of_reading hst hreading
    ((hm.active s).trans (hl.active s).symm) hview
  cases hr'.unique h''
  exact ⟨hsame, hw⟩

/-- What a direction is after one side has been equipped. -/
theorem direction_equip (l : Link) (s d : Side) (k : Option Sink) (i : Option Identity) (n : Bool) :
    (l.put s { l.side s with
      pipe := { (l.side s).pipe with sink := k, identity := i }, listening := n }).direction d =
      { l.direction d with
        sink := update (l.direction d).sink s k
        identity := update (l.direction d).identity s i
        listening := update (l.direction d).listening s n } := by
  unfold direction
  congr 1
  · cases s <;> cases d <;> rfl
  · cases s <;> cases d <;> rfl
  · rw [view, queues_put]
    rfl
  · cases s <;> cases d <;> rfl
  · cases s <;> cases d <;> rfl
  · funext s'
    cases s <;> cases s' <;> rfl
  · funext s'
    cases s <;> cases s' <;> rfl
  · funext s'
    cases s <;> cases s' <;> rfl

/-- **An end is set up in the same way in every pair with the same direction.** -/
theorem deed_of_equips (hl : Steady l) (hm : Steady m) (heq : m.direction d = l.direction d)
    {step : Step} (he : step.equips = true) :
    m.deed step = l.deed step ∧ (m.step step).2.direction d = (l.step step).2.direction d := by
  have hsink : ∀ s, (m.side s).pipe.sink = (l.side s).pipe.sink :=
    congrFun (congrArg Direction.sink heq)
  have hidentity : ∀ s, (m.side s).pipe.identity = (l.side s).pipe.identity :=
    congrFun (congrArg Direction.identity heq)
  have hlistening : ∀ s, (m.side s).listening = (l.side s).listening :=
    congrFun (congrArg Direction.listening heq)
  rw [deed_equips he, deed_equips he]
  cases step with
  | setSink s k =>
    cases hk : (l.side s).pipe.sink with
    | some old =>
      have hid : (m.side s).pipe.id = (l.side s).pipe.id := (hm.id s).trans (hl.id s).symm
      rw [step_setSink_of_some hk, step_setSink_of_some ((hsink s).trans hk), hid]
      exact ⟨rfl, heq⟩
    | none =>
      rw [step_setSink_of_none hk, step_setSink_of_none ((hsink s).trans hk)]
      refine ⟨rfl, (m.direction_equip s d (some k) (m.side s).pipe.identity true).trans ?_⟩
      rw [heq, hidentity]
      exact (l.direction_equip s d (some k) (l.side s).pipe.identity true).symm
  | setIdentity s i =>
    cases hi : (l.side s).pipe.identity with
    | some old =>
      rw [step_setIdentity_of_some hi, step_setIdentity_of_some ((hidentity s).trans hi)]
      exact ⟨rfl, heq⟩
    | none =>
      rw [step_setIdentity_of_none hi, step_setIdentity_of_none ((hidentity s).trans hi)]
      refine ⟨rfl,
        (m.direction_equip s d (m.side s).pipe.sink (some i) (m.side s).listening).trans ?_⟩
      rw [heq, hsink, hlistening]
      exact (l.direction_equip s d (l.side s).pipe.sink (some i) (l.side s).listening).symm
  | _ => cases he

theorem Took.lone_of_writes {st : Stimulus} {r : Reaction} {rep : Report}
    (ht : Took l s st r rep l') (hl : Steady l) (h : Lone l s)
    (hw : r.Writes (l.side s).pipe l.view st) : Lone l' s where
  dueWriter c hc := h.dueWriter c (ht.inbox ▸ List.mem_append_right _ hc)
  dueReader c hc := by
    rw [ht.outbox, if_pos (hl.receiving _)] at hc
    exact (List.mem_append.1 hc).elim (h.dueReader c) (hw.posted c)

theorem Took.lone_of_reads {st : Stimulus} {r : Reaction} {rep : Report}
    (ht : Took l s st r rep l') (hl : Steady l) (h : Lone l s.other)
    (hr : r.Reads (l.side s).pipe l.view) : Lone l' s.other where
  dueWriter c hc := by
    rw [ht.outbox, if_pos (hl.receiving _)] at hc
    exact (List.mem_append.1 hc).elim (h.dueWriter c) (hr.posted c)
  dueReader c hc := by
    rw [Side.other_other] at hc
    refine h.dueReader c ?_
    rw [Side.other_other]
    exact ht.inbox ▸ List.mem_append_right _ hc

/-- What is about the writing half of a side comes to the same in every pair with the direction in
which it writes. -/
theorem CalmRun.deed_of_writes (h : CalmRun config a b tr l) (hm : CalmRun config a b tr' m)
    {step : Step} (hlone : Lone m step.side) (heq : m.direction step.side = l.direction step.side)
    (htaken : step.taken m = step.taken l) {st : Stimulus} {r r' : Reaction}
    (hst : st.writes = true) (ht : Took l step.side st r (l.step step).1 (l.step step).2)
    (htm : Took m step.side st r' (m.step step).1 (m.step step).2) :
    m.deed step = l.deed step ∧
      (m.step step).2.direction step.side = (l.step step).2.direction step.side ∧
      Lone (m.step step).2 step.side := by
  have hl := CalmRun.steady h
  have hsm := CalmRun.steady hm
  have hw := (h.flows hl ht.reacts).1 hst
  have hwm := (hm.flows hsm htm.reacts).1 hst
  obtain ⟨hsame, hwriting⟩ :=
    h.same_of_writes hl hsm heq hst ⟨_, ht.inbox⟩ ht.reacts htm.reacts
  have hqueue : (fun g => r'.view (.inbound step.side.other.id g)) =
      fun g => r.view (.inbound step.side.other.id g) :=
    funext fun g => hsame.view _ (congrFun (congrArg Direction.queue heq) g)
  refine ⟨ht.deed_congr htm hsame htaken heq, ?_, htm.lone_of_writes hsm hlone hwm⟩
  rw [htm.direction_of_writes hsm hst hwm, ht.direction_of_writes hl hst hw, heq, hwriting,
    hsame.posted, hqueue]

/-- What is about the reading half of a side comes to the same in every pair with the direction in
which it reads. -/
theorem CalmRun.deed_of_reads (h : CalmRun config a b tr l) (hm : CalmRun config a b tr' m)
    {step : Step} (hlone : Lone m step.side.other)
    (heq : m.direction step.side.other = l.direction step.side.other)
    (htaken : step.taken m = step.taken l) {st : Stimulus} {r r' : Reaction}
    (hst : st.reads = true) (ht : Took l step.side st r (l.step step).1 (l.step step).2)
    (htm : Took m step.side st r' (m.step step).1 (m.step step).2) :
    m.deed step = l.deed step ∧
      (m.step step).2.direction step.side.other = (l.step step).2.direction step.side.other ∧
      Lone (m.step step).2 step.side.other := by
  have hl := CalmRun.steady h
  have hsm := CalmRun.steady hm
  have hr := (h.flows hl ht.reacts).2 hst
  have hrm := (hm.flows hsm htm.reacts).2 hst
  obtain ⟨hsame, hreading⟩ := h.same_of_reads hl hsm heq hst ht.reacts htm.reacts
  have hqueue : (fun g => r'.view (.inbound step.side.id g)) =
      fun g => r.view (.inbound step.side.id g) :=
    funext fun g => hsame.view _ (by
      simpa only [direction, Side.other_other] using congrFun (congrArg Direction.queue heq) g)
  refine ⟨ht.deed_congr htm hsame htaken heq, ?_, htm.lone_of_reads hsm hlone hrm⟩
  rw [htm.direction_of_reads hsm hst hrm, ht.direction_of_reads hl hst hr, heq, hreading,
    hsame.posted, hqueue]

/-- **A step about a direction depends on nothing else:** it comes to the same in every pair with
that direction in which nothing else is underway. -/
theorem CalmRun.deed_of_kept (h : CalmRun config a b tr l) (hm : CalmRun config a b tr' m)
    (hlone : Lone m d) (heq : m.direction d = l.direction d) {step : Step}
    (hc : step.isCalm = true) (hd : (l.deed step).isOf d = true) :
    m.deed step = l.deed step ∧ (m.step step).2.direction d = (l.step step).2.direction d ∧
      Lone (m.step step).2 d := by
  have hl := CalmRun.steady h
  have hsm := CalmRun.steady hm
  have htaken := hlone.taken heq hd
  have hstm : (m.deed step).stimulus? = (l.deed step).stimulus? := by
    unfold Deed.stimulus? deed
    rw [htaken]
  rcases step_of_isOf hl hc hd with ⟨st, hst, hside⟩ | he
  · obtain ⟨r, ht⟩ := took_of_stimulus hst
    obtain ⟨r', htm⟩ := took_of_stimulus (hstm.trans hst)
    rcases hside with ⟨rfl, hwrites⟩ | ⟨rfl, hreads⟩
    · exact h.deed_of_writes hm hlone heq htaken hwrites ht htm
    · exact h.deed_of_reads hm hlone heq htaken hreads ht htm
  · obtain ⟨hdeed, hdir⟩ := deed_of_equips hl hsm heq he
    obtain ⟨-, -, hin⟩ := step_equips (l := m) he
    refine ⟨hdeed, hdir, fun c hm => hlone.dueWriter c ?_, fun c hm => hlone.dueReader c ?_⟩
    · rwa [commands, hin] at hm
    · rwa [commands, hin] at hm

/-! ## Whole runs -/

/-- **The steps about a direction come to the same with all others left out.** -/
theorem CalmRun.deeds_of_kept (h : CalmRun config a b tr l) (hm : CalmRun config a b tr' m)
    (hlone : Lone m d) (heq : m.direction d = l.direction d) {steps : List Step}
    (hc : ∀ step ∈ steps, step.isCalm = true) :
    m.deeds (((l.deeds steps).filter (Deed.isOf d)).map Deed.step) =
      (l.deeds steps).filter (Deed.isOf d) := by
  induction steps generalizing tr tr' l m with
  | nil => rfl
  | cons step steps ih =>
    obtain ⟨hstep, hsteps⟩ := List.forall_mem_cons.1 hc
    have hnext : CalmRun config a b _ (l.step step).2 := h.step hstep
    rw [deeds]
    cases hd : (l.deed step).isOf d with
    | true =>
      obtain ⟨hdeed, heq', hlone'⟩ := CalmRun.deed_of_kept h hm hlone heq hstep hd
      rw [List.filter_cons_of_pos hd, List.map_cons, deed_step, deeds, hdeed,
        ih hnext (hm.step hstep) hlone' heq' hsteps]
    | false =>
      rw [List.filter_cons_of_neg (by simp [hd])]
      exact ih hnext hm hlone (heq.trans (CalmRun.direction_of_dropped h hstep hd).symm) hsteps

theorem CalmRun.deeds_within (h : CalmRun config a b tr l) {steps : List Step}
    (hc : ∀ step ∈ steps, step.isCalm = true) (d : Side) :
    ∀ x ∈ l.deeds steps,
      (x.isOf d = true → x.Within d) ∧ (x.isOf d = false → x.Within d.other) := by
  induction steps generalizing tr l with
  | nil => exact List.forall_mem_nil _
  | cons step steps ih =>
    obtain ⟨hstep, hsteps⟩ := List.forall_mem_cons.1 hc
    have hnext : CalmRun config a b _ (l.step step).2 := h.step hstep
    exact List.forall_mem_cons.2
      ⟨⟨CalmRun.within_of_isOf h hstep, CalmRun.within_of_not_isOf h hstep⟩, ih hnext hsteps⟩

/-- What all say is what those say that are kept, if the others say nothing. -/
theorem flatMap_eq_flatMap_filter {α β : Type} {f g : α → List β} {k : α → Bool} {xs : List α}
    (h : ∀ x ∈ xs, (k x = true → f x = g x) ∧ (k x = false → f x = [])) :
    xs.flatMap f = (xs.filter k).flatMap g := by
  induction xs with
  | nil => rfl
  | cons x xs ih =>
    obtain ⟨⟨hkept, hdropped⟩, hxs⟩ := List.forall_mem_cons.1 h
    rw [List.flatMap_cons, ih hxs]
    cases hk : k x with
    | true => rw [hkept hk, List.filter_cons_of_pos hk, List.flatMap_cons]
    | false => rw [hdropped hk, List.filter_cons_of_neg (by simp [hk]), List.nil_append]

/-- **The two directions of a pair do not interfere.** Of all that happens to a fresh pair keep what
is about one direction: from the same pair that alone can be done, with the same commands taken,
results, commands sent, events notified and events heard, and these are all commands and events
there were in that direction. -/
theorem directions_independent (h : create config a b = .ok l) (d : Side) (steps : List Step)
    (hc : ∀ step ∈ steps, step.isCalm = true) :
    let kept := (l.deeds steps).filter (Deed.isOf d)
    l.deeds (kept.map Deed.step) = kept ∧
      (l.deeds steps).flatMap (Deed.postedIn d) = kept.flatMap Deed.posted ∧
      (l.deeds steps).flatMap (Deed.notifiedIn d) = kept.flatMap Deed.notified ∧
      (l.deeds steps).flatMap (Deed.heardIn d) = kept.flatMap Deed.heard := by
  intro kept
  have hfresh : CalmRun config a b [] l := .fresh h
  have hwithin := CalmRun.deeds_within hfresh hc d
  refine ⟨CalmRun.deeds_of_kept hfresh hfresh (.of_create h d) rfl hc, ?_, ?_, ?_⟩
  · exact flatMap_eq_flatMap_filter fun x hx =>
      ⟨fun hd => ((hwithin x hx).1 hd).said.1, fun hd => ((hwithin x hx).2 hd).unsaid.1⟩
  · exact flatMap_eq_flatMap_filter fun x hx =>
      ⟨fun hd => ((hwithin x hx).1 hd).said.2.1, fun hd => ((hwithin x hx).2 hd).unsaid.2.1⟩
  · exact flatMap_eq_flatMap_filter fun x hx =>
      ⟨fun hd => ((hwithin x hx).1 hd).said.2.2, fun hd => ((hwithin x hx).2 hd).unsaid.2.2⟩

/-- Both owners look for frames, write, replace the queue they read and take what arrives; half of
it is about the direction from the first to the second. -/
theorem directions_independent_of_interleaved :
    let steps : List Step :=
      [.call .b .checkRead, .call .a .checkRead, .call .a .hiccup,
        .call .a (.write (.ofBytes ⟨#[1]⟩)), .call .b (.write (.ofBytes ⟨#[2]⟩)), .call .a .flush,
        .deliver .b, .call .b .flush, .deliver .b, .call .b .read, .deliver .a, .call .a .read,
        .call .b .hiccup, .deliver .a]
    let kept : List Step :=
      [.call .b .checkRead, .call .a (.write (.ofBytes ⟨#[1]⟩)), .call .a .flush, .deliver .b,
        .call .b .read, .call .b .hiccup, .deliver .a]
    ∃ l : Link, create {} { options := {} } { options := {} } = .ok l ∧
      (∀ step ∈ steps, step.isCalm = true) ∧
      l.deeds kept = (l.deeds steps).filter (Deed.isOf .a) ∧
      (l.deeds steps).flatMap (Deed.heardIn .a) = [.readActivated, .hiccuped] := by
  intro steps kept
  have hcreate : create {} { options := {} } { options := {} } = .ok _ := rfl
  have hcalm : ∀ step ∈ steps, step.isCalm = true := by decide
  obtain ⟨hdeeds, -, -, hheard⟩ := directions_independent hcreate .a steps hcalm
  refine ⟨_, hcreate, hcalm, hdeeds, hheard.trans ?_⟩
  decide

end Link

end MessagePipe
