import MessagePipe.Proofs.Lane

/-!
# Both directions of a pair keep their invariant

`Pair.Sound` joins what is known of a pair: how it is wired (`Proofs/Wiring`), that its ends agree
on termination (`Proofs/Handshake`), and that both its directions are sound (`Proofs/Lane`). Every
reaction of an end is a step of the writer in one direction and of the reader in the other one. The
three parts need each other: that a delimiter is read only of a peer that asked is a fact about the
data, and that a notice arrives only at an end that still feeds the queue it names is one about
termination.

* `Pair.lane`: the direction in which a side writes, as a lane.
* `Sound.writes`: whatever an end does, the direction it writes in stays sound. Its cases are the
  lemmas `writes_of_lane` (it changes what its queue holds), `writes_release` (it gives the queue
  up), `writes_stay` and `writes_signal` (it leaves it), and `writes_advance` (it moves its stream
  on, §11.3 of the specification).
* `Sound.reads`: so does the direction it reads in, by `reads_stay` and `reads_take`.
* `Sound.terminated_of_delimiter`: a delimiter is read only of a peer that asked to terminate; it
  discharges the condition of `Agrees.react`.
* `Sound.react`, `Reached.sound`: every reachable pair is sound, by induction on its steps.
* `Link.Run.exists_sound`: so every run is followed by a pair that is sound. Most results about runs
  start from here.

The lemmas in the middle say which queues an end has to do with: those it reads from are not the one
it feeds, nor any that a notice names.

Premise: none. A mailbox that closes keeps commands underway for good, as said in `Proofs/Pair`.

Out of scope: counters and watermarks (`Proofs/Tally`).
-/

namespace MessagePipe

open Function (update)

/-! ## Where a signal leads -/

theorem State.on_ne_active {s s' : State} {sg : Signal} {a : Action}
    (h : s.on sg = some (s', a)) : s' ≠ .active := by
  cases move_of_on h <;> decide

theorem State.on_ne_terminated {s s' : State} {sg : Signal} {a : Action}
    (h : s.on sg = some (s', a)) (hsg : ∀ d, sg ≠ .terminate d) : s' ≠ .terminated := by
  cases move_of_on h with
  | ask | askDelimited | askAgain => exact absurd rfl (hsg _)
  | _ => decide

/-- An end that was out of reading does not take it up again. -/
theorem State.isReadable_of_on {s s' : State} {sg : Signal} {a : Action}
    (h : s.on sg = some (s', a)) (hr : s'.isReadable = true) :
    s.isReadable = true ∧ sg ≠ .delimiterRead ∧ sg ≠ .peerTermAck := by
  cases move_of_on h with
  | askToWait | wait => exact ⟨rfl, nofun, nofun⟩
  | _ => cases hr

/-- An end that asks to terminate and keeps its outbound queue does so for the first time. -/
theorem State.on_terminate_terminated {s : State} {d : Bool} {a : Action}
    (h : s.on (.terminate d) = some (.terminated, a)) (ha : a ≠ .ignore) : s ≠ .terminated := by
  rintro rfl
  cases h
  exact ha rfl

/-- A queue that is left after a signal was there before. -/
theorem Pipe.outbound_of_signalled {p : Pipe} {s : State} {a : Action} {q : QueueId}
    (h : (p.signalled s a).outbound = some q) : p.outbound = some q := by
  unfold Pipe.signalled at h
  cases hr : a.releases with
  | true =>
    rw [hr] at h
    cases h
  | false =>
    rw [hr] at h
    exact h

namespace Pair

/-! ## The directions of a pair -/

/-- The direction in which side `s` writes. -/
def lane (x : Pair) (s : Side) : Lane where
  queue g := x.view (.inbound s.other.id g)
  fed := (x.pipe s).outbound.map QueueId.generation
  current := (x.pipe s.other).generation
  writer := (x.pipe s).state
  reader := (x.pipe s.other).state
  looking := (x.pipe s.other).inActive
  woken := .activateRead ∈ x.due s.other
  written := x.written s
  obtained := x.obtained s.other

/-- **The invariant of a pair.** -/
structure Sound (x : Pair) : Prop where
  wired : Wired x
  agrees : Agrees x
  lanes : ∀ s, (x.lane s).Sound

variable {x : Pair} {s : Side} {st : Stimulus} {r : Reaction} {left : List Command}

theorem inbound_ne (s : Side) (g g' : Nat) :
    QueueId.inbound s.id g ≠ .inbound s.other.id g' := fun h =>
  s.id_ne (QueueId.inbound.inj h).1

/-- The peer of an end that still reads feeds a queue. -/
theorem Sound.fed_of_readable (h : Sound x) (hr : (x.pipe s).state.isReadable = true) :
    ∃ g, (x.lane s.other).fed = some g ∧
      (x.pipe s.other).outbound = some (.inbound s.id g) := by
  obtain ⟨-, hst⟩ := (h.agrees.meet s).of_readable hr
  have hh := h.agrees.honest s.other
  cases ho : (x.pipe s.other).outbound with
  | none =>
    rw [Pipe.Honest, ho] at hh
    rcases hst with hst | hst
    · rw [show (x.pipe s.other).state = .active from hst] at hh
      cases hh
    · rw [show (x.pipe s.other).state = .terminated from hst] at hh
      cases hh
  | some q =>
    obtain ⟨g, n, hq, -⟩ := h.wired.outbound s.other q ho
    rw [Side.other_other] at hq
    exact ⟨g, by rw [lane, ho, hq]; rfl, by rw [hq]⟩

/-- The peer of an end that is acknowledged gave its outbound queue up. -/
theorem Sound.released_of_ack (h : Sound x) (hd : x.due s = .pipeTermAck :: left) :
    (x.pipe s.other).outbound = none := by
  have hf : (x.stance s).due = .pipeTermAck :: left.filter CommandOf.isSignal := by
    unfold stance
    rw [hd]
    rfl
  obtain ⟨-, -, hr⟩ := (h.agrees.meet s).of_ack hf
  have hh := h.agrees.honest s.other
  rw [Pipe.Honest, show (x.pipe s.other).state.hasReleased = true from hr] at hh
  exact Option.isNone_iff_eq_none.1 hh

theorem Agrees.outbound_of_terminating (h : Agrees x) (hs : (x.pipe s).state = .terminating) :
    (x.pipe s).outbound = none := by
  have hh := h.honest s
  rw [Pipe.Honest, hs] at hh
  exact Option.isNone_iff_eq_none.1 hh

/-- An end that still reads has a queue to read from. -/
theorem Sound.inbound_of_readable (h : Sound x) (hr : (x.pipe s).state.isReadable = true) :
    (x.pipe s).inbound = some (.inbound s.id (x.pipe s).generation) := by
  obtain ⟨hc, -⟩ := (h.agrees.meet s).of_readable hr
  cases hi : (x.pipe s).inbound with
  | none =>
    rw [show (x.stance s).closed = (x.pipe s).inbound.isNone from rfl, hi] at hc
    cases hc
  | some q => rw [h.wired.inbound s q hi]

/-- **A delimiter is read only of a peer that asked to terminate.** -/
theorem Sound.terminated_of_delimiter (h : Sound x) (hd : (x.pipe s).AtDelimiter x.view) :
    (x.pipe s.other).state = .terminated := by
  obtain ⟨hm, q, f, fs, hi, hv, hf⟩ := hd
  have hr : (x.pipe s).state.isReadable = true := (Bool.and_eq_true_iff.1 hm).2
  obtain ⟨g, hg, -⟩ := h.fed_of_readable hr
  have hflow := (h.lanes s.other).flows g hg
  obtain ⟨-, hst | hst⟩ := (h.agrees.meet s).of_readable hr
  · rw [h.wired.inbound s q hi] at hv
    have hv : ((x.lane s.other).queue (x.lane s.other).current).visible = f :: fs := by
      unfold lane
      dsimp only
      rwa [Side.other_other]
    have hmem : f ∈ ((x.lane s.other).queue g).all := by
      rw [hflow.eq_current hv, Segments.all, hv]
      simp
    rw [hflow.streaming hst f hmem] at hf
    cases hf
  · exact hst

theorem lane_after_self (x : Pair) (s : Side) (st : Stimulus) (r : Reaction)
    (left : List Command) : (x.after s st r left).lane s = { x.lane s with
      queue := fun g => r.view (.inbound s.other.id g)
      fed := r.pipe.outbound.map QueueId.generation
      writer := r.pipe.state
      woken := .activateRead ∈ x.due s.other ++ r.posted
      written := st.sent (x.written s) r } := by
  simp only [lane, pipe_after_self, pipe_after_other, due_after_other, written_after_self,
    obtained_after_other, view_after]

/-- The direction in which side `s` reads. -/
theorem lane_other (x : Pair) (s : Side) : x.lane s.other =
    { queue := fun g => x.view (.inbound s.id g)
      fed := (x.pipe s.other).outbound.map QueueId.generation
      current := (x.pipe s).generation
      writer := (x.pipe s.other).state
      reader := (x.pipe s).state
      looking := (x.pipe s).inActive
      woken := .activateRead ∈ x.due s
      written := x.written s.other
      obtained := x.obtained s } := by
  simp only [lane, Side.other_other]

theorem lane_after_other (x : Pair) (s : Side) (st : Stimulus) (r : Reaction)
    (left : List Command) : (x.after s st r left).lane s.other =
    { queue := fun g => r.view (.inbound s.id g)
      fed := (x.pipe s.other).outbound.map QueueId.generation
      current := r.pipe.generation
      writer := (x.pipe s.other).state
      reader := r.pipe.state
      looking := r.pipe.inActive
      woken := .activateRead ∈ left
      written := x.written s.other
      obtained := x.obtained s ++ st.received r } := by
  simp only [lane, Side.other_other, pipe_after_self, pipe_after_other, due_after_self,
    written_after_other, obtained_after_self, view_after]

theorem queue_update (v : View) (id : PipeId) (g : Nat) (q : Segments Frame) :
    (fun g' => update v (.inbound id g) q (.inbound id g')) =
      update (fun g' => v (.inbound id g')) g q :=
  Function.update_comp_eq_of_injective v (fun _ _ h => (QueueId.inbound.inj h).2) g q

/-! ## The writer -/

/-- The queue an end feeds is the one its direction flows through. -/
theorem Sound.flows_of_outbound (h : Sound x) {q : QueueId} (hq : (x.pipe s).outbound = some q) :
    ∃ g, q = .inbound s.other.id g ∧ (x.lane s).fed = some g ∧ (x.lane s).Flows g := by
  obtain ⟨g, n, rfl, -⟩ := h.wired.outbound s q hq
  have hf : (x.lane s).fed = some g := by
    unfold Pair.lane
    rw [hq]
    rfl
  exact ⟨g, rfl, hf, (h.lanes s).flows g hf⟩

/-- The queue an end feeds is none of those it reads from. -/
theorem Sound.inbound_ne_outbound (h : Sound x) {q : QueueId} (ho : (x.pipe s).outbound = some q)
    (g : Nat) : .inbound s.id g ≠ q := by
  obtain ⟨g', rfl, -⟩ := h.flows_of_outbound ho
  exact inbound_ne s g g'

theorem Sound.update_outbound (h : Sound x) {q : QueueId} (ho : (x.pipe s).outbound = some q)
    (c : Segments Frame) (g : Nat) :
    update x.view q c (.inbound s.id g) = x.view (.inbound s.id g) :=
  Function.update_of_ne (h.inbound_ne_outbound ho g) ..

theorem Sound.outbound_ne_inbound (h : Sound x) {q q' : QueueId}
    (ho : (x.pipe s).outbound = some q) (hi : (x.pipe s).inbound = some q') : q ≠ q' := by
  obtain rfl := h.wired.inbound s q' hi
  exact (h.inbound_ne_outbound ho _).symm

/-- Nor is any queue that a notice tells of. -/
theorem Sound.inbound_ne_of_notice (h : Sound x) {w r old : QueueId}
    (hd : x.due s = .hiccup w r :: left) (ho : (x.pipe s).outbound = some old) (g : Nat) :
    .inbound s.id g ≠ old ∧ .inbound s.id g ≠ w ∧ .inbound s.id g ≠ r := by
  obtain ⟨g', n, rfl, rfl, rfl, -⟩ := h.wired.of_notice hd ho
  exact ⟨inbound_ne s g _, inbound_ne s g _, inbound_ne s g _⟩

theorem Sound.moveStream_of_notice (h : Sound x) {w r old : QueueId}
    (hd : x.due s = .hiccup w r :: left) (ho : (x.pipe s).outbound = some old) (g : Nat) :
    x.view.moveStream old w r (.inbound s.id g) = x.view (.inbound s.id g) := by
  obtain ⟨h1, h2, h3⟩ := h.inbound_ne_of_notice hd ho g
  exact x.view.moveStream_of_ne h1 h2 h3

/-- The next queue takes the stream over, frame by frame. -/
theorem Sound.moveStream_next (h : Sound x) {g : Nat}
    (ho : (x.pipe s).outbound = some (.inbound s.other.id g)) :
    x.view.moveStream (.inbound s.other.id g) (.inbound s.other.id (g + 1))
        (.inbound s.other.id g) (.inbound s.other.id (g + 1)) =
      { visible := []
        ready := (x.view (.inbound s.other.id g)).visible ++ (x.view (.inbound s.other.id g)).ready
        fragments := (x.view (.inbound s.other.id g)).fragments
        idle := (x.view (.inbound s.other.id (g + 1))).idle } := by
  obtain ⟨g', he, -, hflow⟩ := h.flows_of_outbound ho
  obtain rfl : g = g' := (QueueId.inbound.inj he).2
  exact x.view.moveStream_writer (fun he => Nat.succ_ne_self g (QueueId.inbound.inj he).2)
    (hflow.blank (g + 1) (Nat.lt_succ_self g)) hflow.sane.whole

/-- So does the queue that a notice tells of, for that is the next one. -/
theorem Sound.moved_of_notice (h : Sound x) {w r old : QueueId}
    (hd : x.due s = .hiccup w r :: left) (ho : (x.pipe s).outbound = some old) :
    x.view.moveStream old w r w =
      { visible := [], ready := (x.view old).visible ++ (x.view old).ready,
        fragments := (x.view old).fragments, idle := (x.view w).idle } := by
  obtain ⟨g, n, rfl, rfl, rfl, -⟩ := h.wired.of_notice hd ho
  exact h.moveStream_next ho

/-- The writer changes what the queue of generation `g` holds. -/
theorem writes_of_lane {g : Nat} {c : Segments Frame}
    (hv : r.view = update x.view (.inbound s.other.id g) c)
    (ho : r.pipe.outbound = (x.pipe s).outbound)
    (hl : Lane.Sound { x.lane s with
      queue := update (x.lane s).queue g c
      writer := r.pipe.state
      woken := .activateRead ∈ x.due s.other ++ r.posted
      written := st.sent (x.written s) r }) : ((x.after s st r left).lane s).Sound := by
  rw [lane_after_self, hv, queue_update, ho]
  exact hl

/-- The writer gives its queue up. -/
theorem Sound.writes_release (h : Sound x) (ho : r.pipe.outbound = none)
    (hv : ∀ g, r.view (.inbound s.other.id g) = x.view (.inbound s.other.id g))
    (hw : st.sent (x.written s) r = x.written s) : ((x.after s st r left).lane s).Sound := by
  have hl := ((h.lanes s).release r.pipe.state).stay r.pipe.state (x.pipe s.other).state
    (x.pipe s.other).inActive (CommandOf.activateRead ∈ x.due s.other ++ r.posted) id
    (fun _ => id) id (fun _ hl => .inr ⟨hl, List.mem_append_left _⟩)
  rw [lane_after_self, hw, ho,
    show (fun g => r.view (.inbound s.other.id g)) = (x.lane s).queue from funext hv]
  exact hl

/-- The writer leaves its queue as it is. -/
theorem Sound.writes_stay (h : Sound x) (ho : r.pipe.outbound = (x.pipe s).outbound)
    (hv : ∀ g, r.view (.inbound s.other.id g) = x.view (.inbound s.other.id g))
    (hw : st.sent (x.written s) r = x.written s)
    (ha : r.pipe.state = .active → (x.pipe s).state = .active)
    (ht : r.pipe.state = .terminated → (x.pipe s).state = .terminated) :
    ((x.after s st r left).lane s).Sound := by
  have hl := (h.lanes s).stay r.pipe.state (x.pipe s.other).state (x.pipe s.other).inActive
    (CommandOf.activateRead ∈ x.due s.other ++ r.posted) ha (fun _ => ht) id
    (fun _ hl => .inr ⟨hl, List.mem_append_left _⟩)
  rw [lane_after_self, hw, ho,
    show (fun g => r.view (.inbound s.other.id g)) = (x.lane s).queue from funext hv]
  exact hl

/-- A signal other than the request of the owner leaves the queue as it is, or gives it up. -/
theorem Sound.writes_signal (h : Sound x) {sg : Signal} {s' : State} {a : Action}
    (hon : (x.pipe s).state.on sg = some (s', a)) (hsg : ∀ d, sg ≠ .terminate d)
    (hs : r.pipe.state = s')
    (ho : r.pipe.outbound = if a.releases then none else (x.pipe s).outbound)
    (hv : ∀ g, r.view (.inbound s.other.id g) = x.view (.inbound s.other.id g))
    (hw : st.sent (x.written s) r = x.written s) : ((x.after s st r left).lane s).Sound := by
  cases ha : a.releases with
  | true =>
    rw [ha, if_pos rfl] at ho
    exact h.writes_release ho hv hw
  | false =>
    rw [ha, if_neg Bool.false_ne_true] at ho
    exact h.writes_stay ho hv hw (fun hact => absurd (hs ▸ hact) (State.on_ne_active hon))
      (fun ht => absurd (hs ▸ ht) (State.on_ne_terminated hon hsg))

theorem accepted_of_look {c : Call} {e : Reply} (h : c.emptyReply = some e)
    (result : Except Fault Reply) : c.accepted result = [] := by
  cases c with
  | read | checkRead => rfl
  | _ => cases h

theorem sent_call {c : Call} (h : c.accepted r.result = []) (frames : List Frame) :
    (Stimulus.call c).sent frames r = frames.rdrop r.takenBack := by
  rw [Stimulus.sent, h, List.append_nil]

theorem sent_of_look {c : Call} {e : Reply} (h : c.emptyReply = some e) (frames : List Frame)
    (hr : r.takenBack = 0) : (Stimulus.call c).sent frames r = frames := by
  rw [sent_call (accepted_of_look h _), hr, List.rdrop_zero]

/-- The writer moves its stream on to the next queue, and publishes it there. -/
theorem Sound.writes_advance (h : Sound x) {g : Nat} {m : View}
    (hq : (x.pipe s).outbound = some (.inbound s.other.id g))
    (hlt : g < (x.pipe s.other).generation)
    (hm : m = x.view.moveStream (.inbound s.other.id g) (.inbound s.other.id (g + 1))
      (.inbound s.other.id g))
    (ho : r.pipe.outbound = some (.inbound s.other.id (g + 1)))
    (hs : r.pipe.state = (x.pipe s).state)
    (hv : r.view = update m (.inbound s.other.id (g + 1))
      (m (.inbound s.other.id (g + 1))).flush.2)
    (hp : r.posted = (m (.inbound s.other.id (g + 1))).wake)
    (hw : st.sent (x.written s) r = x.written s) : ((x.after s st r left).lane s).Sound := by
  obtain ⟨g', hg', hg, -⟩ := h.flows_of_outbound hq
  obtain rfl : g = g' := (QueueId.inbound.inj hg').2
  have hne : ∀ {i j : Nat}, i ≠ j → QueueId.inbound s.other.id i ≠ .inbound s.other.id j :=
    fun hij he => hij (QueueId.inbound.inj he).2
  have hmoved := h.moveStream_next hq
  rw [← hm] at hmoved
  have hmv : Lane.Moved (x.lane s).queue (fun i => r.view (.inbound s.other.id i)) g := by
    constructor
    case others =>
      intro i hi hi'
      rw [hv, Function.update_of_ne (hne hi'), hm,
        x.view.moveStream_of_ne (hne hi) (hne hi') (hne hi)]
      rfl
    case old =>
      rw [hv, Function.update_of_ne (hne (Nat.succ_ne_self g).symm), hm]
      rw [x.view.moveStream_retired (hne (Nat.succ_ne_self g))]
    case new =>
      rw [hv, Function.update_self, hmoved]
      rfl
  rw [lane_after_self, ho, hs, hw]
  refine (h.lanes s).advance hg hlt hmv (fun hi => ?_) (List.mem_append_left _)
  rw [hp, hv, Function.update_self]
  exact (Segments.idle_flush (by rw [hmoved]; exact hi)).imp_right (List.mem_append_right _)

/-- **Whatever an end does, the direction it writes in stays sound.** -/
theorem Sound.writes (h : Sound x) (hd : x.due s = st.taken ++ left)
    (hr : Reacts (x.pipe s) x.view st r) : ((x.after s st r left).lane s).Sound := by
  have hl := h.lanes s
  have hin : ∀ {q : QueueId} (c : Segments Frame), (x.pipe s).inbound = some q →
      ∀ g, update x.view q c (.inbound s.other.id g) = x.view (.inbound s.other.id g) :=
    fun c hq g => Function.update_of_ne (h.wired.inbound s _ hq ▸ (inbound_ne s _ g).symm) ..
  cases hr with
  | writeAccepted hf ho hs hn hq =>
    obtain ⟨g, rfl, hg, -⟩ := h.flows_of_outbound hq
    refine writes_of_lane rfl rfl ?_
    rw [Stimulus.sent, List.rdrop_zero]
    exact hl.write hg hf hs (List.mem_append_left _)
  | flush hs hq =>
    obtain ⟨g, rfl, hg, -⟩ := h.flows_of_outbound hq
    refine writes_of_lane rfl rfl ?_
    rw [sent_call rfl, List.rdrop_zero]
    exact hl.flush hg (List.mem_append_left _) (List.mem_append_right _)
  | rollback hq hall =>
    obtain ⟨g, rfl, hg, -⟩ := h.flows_of_outbound hq
    refine writes_of_lane rfl rfl ?_
    rw [sent_call rfl]
    exact hl.rollback hg (List.mem_append_left _)
  | rollbackFault hq hall =>
    -- Of a queue that is sane, no fragment ends a message.
    obtain ⟨g, rfl, -, hflow⟩ := h.flows_of_outbound hq
    cases hall.symm.trans hflow.sane.all_hasMore
  | lookIdle hc hm =>
    exact h.writes_stay rfl (fun _ => rfl) (sent_of_look hc _ rfl) (fun h => h) (fun h => h)
  | lookDry hc hm hi hv =>
    exact h.writes_stay rfl (hin _ hi) (sent_of_look hc _ rfl) (fun h => h) (fun h => h)
  | lookDelimiter hc hm hi hv hf hon =>
    exact h.writes_signal hon (by simp) rfl rfl (hin _ hi) (sent_of_look hc _ rfl)
  | readFrame hm hi hv hf =>
    exact h.writes_stay rfl (hin _ hi) (sent_of_look (c := .read) rfl _ rfl) (fun h => h)
      (fun h => h)
  | terminateReleased hon ha hq =>
    refine h.writes_release hq (fun _ => rfl) ?_
    rw [sent_call rfl, List.rdrop_zero]
  | @terminate d s' a q hon ha hq hall =>
    have hq' := Pipe.outbound_of_signalled hq
    obtain ⟨g, rfl, hg, -⟩ := h.flows_of_outbound hq'
    refine writes_of_lane rfl (hq.trans hq'.symm) ?_
    rw [sent_call rfl]
    refine hl.finish hg (List.mem_append_left _)
      (fun hk => List.mem_append_right _ (List.mem_append_right _ hk))
      (State.on_ne_active hon) fun hread ht => ?_
    -- Of an end that reads, the peer is in operation before it asks to terminate.
    obtain ⟨-, hst⟩ := (h.agrees.meet s.other).of_readable hread
    rw [Side.other_other] at hst
    rcases hst with hst | hst
    · exact hst
    · obtain rfl : s' = .terminated := ht
      exact absurd hst (State.on_terminate_terminated hon ha)
  | terminateFault hon ha hq hall =>
    obtain ⟨g, rfl, -, hflow⟩ := h.flows_of_outbound (Pipe.outbound_of_signalled hq)
    cases hall.symm.trans hflow.sane.all_hasMore
  | hiccup hs hi =>
    -- The fresh queue is one of this end, and not of the peer it writes to.
    refine h.writes_stay rfl (fun g => ?_) ?_ (fun h => h) (fun h => h)
    · rw [h.wired.id]
      exact Function.update_of_ne (inbound_ne s _ g).symm ..
    · rw [sent_call rfl, List.rdrop_zero]
  | pipeTerm hon => exact h.writes_signal hon (by simp) rfl rfl (fun _ => rfl) rfl
  | pipeTermAck hi hon => exact h.writes_signal hon (by simp) rfl rfl (hin _ hi) rfl
  | hiccupMoved hs hq =>
    obtain ⟨g, n, rfl, rfl, rfl, hlt, -⟩ := h.wired.of_notice hd hq
    exact h.writes_advance hq (by omega) rfl rfl rfl rfl rfl rfl
  | hiccupUnflushed hs hq => cases h.agrees.outbound_of_terminating hs ▸ hq
  | _ =>
    exact h.writes_stay rfl (fun _ => rfl)
      (by simp [Stimulus.sent, Call.accepted, List.rdrop_zero]) (fun h => h) (fun h => h)

/-! ## The reader -/

theorem obtained_of_look {c : Call} {e : Reply} (h : c.emptyReply = some e) :
    c.obtained (.ok e) = [] := by
  cases c with
  | read | checkRead =>
    cases h
    rfl
  | _ => rfl

/-- The reader leaves its queue as it is. -/
theorem Sound.reads_stay (h : Sound x) (hd : x.due s = st.taken ++ left)
    (hv : ∀ g, r.view (.inbound s.id g) = x.view (.inbound s.id g))
    (hg : r.pipe.generation = (x.pipe s).generation) (ho : st.received r = [])
    (hr : r.pipe.state.isReadable = true → (x.pipe s).state.isReadable = true)
    (hl : r.pipe.state.isReadable = true → r.pipe.inActive = false →
      (x.pipe s).inActive = false ∧ .activateRead ∉ st.taken) :
    ((x.after s st r left).lane s.other).Sound := by
  have hlane := h.lanes s.other
  rw [lane_other] at hlane
  have hs := hlane.stay (x.pipe s.other).state r.pipe.state r.pipe.inActive
    (CommandOf.activateRead ∈ left) id (fun _ => id) hr fun hr' hl' => by
      obtain ⟨hi, ht⟩ := hl hr' hl'
      refine .inr ⟨hi, fun hw => ?_⟩
      rw [hd] at hw
      exact (List.mem_append.1 hw).resolve_left ht
  rw [lane_after_other, hg, ho, List.append_nil,
    show (fun g => r.view (.inbound s.id g)) = fun g => x.view (.inbound s.id g) from funext hv]
  exact hs

/-- The reader takes the first frame of its queue. -/
theorem Sound.reads_take (h : Sound x) {q : QueueId} {f : Frame} {fs : List Frame}
    (hm : (x.pipe s).mayRead = true) (hi : (x.pipe s).inbound = some q)
    (hv : (x.view q).visible = f :: fs) (reader : State)
    (hr : reader.isReadable = true → f.isDelimiter = false) :
    Lane.Sound { x.lane s.other with
      queue := fun g => update x.view q { x.view q with visible := fs } (.inbound s.id g)
      reader
      obtained := x.obtained s ++ if f.isDelimiter then [] else [f] } := by
  have hl := h.lanes s.other
  obtain rfl := h.wired.inbound s q hi
  obtain ⟨hlook, hread⟩ := Bool.and_eq_true_iff.1 hm
  obtain ⟨g, hg, -⟩ := h.fed_of_readable hread
  rw [lane_other] at hl hg ⊢
  rw [queue_update]
  exact hl.take hg hv reader (fun _ => hlook) fun hr' => ⟨hread, hr hr'⟩

/-- **Whatever an end does, the direction it reads in stays sound.** -/
theorem Sound.reads (h : Sound x) (hd : x.due s = st.taken ++ left)
    (hr : Reacts (x.pipe s) x.view st r) : ((x.after s st r left).lane s.other).Sound := by
  have hl := h.lanes s.other
  rw [lane_other] at hl
  cases hr with
  | writeAccepted hf ho hs hn hq =>
    exact h.reads_stay hd (h.update_outbound hq _) rfl rfl id fun _ hl => ⟨hl, List.not_mem_nil⟩
  | flush hs hq =>
    exact h.reads_stay hd (h.update_outbound hq _) rfl rfl id fun _ hl => ⟨hl, List.not_mem_nil⟩
  | rollback hq hall =>
    exact h.reads_stay hd (h.update_outbound hq _) rfl rfl id fun _ hl => ⟨hl, List.not_mem_nil⟩
  | rollbackFault hq hall =>
    exact h.reads_stay hd (h.update_outbound hq _) rfl rfl id fun _ hl => ⟨hl, List.not_mem_nil⟩
  | lookIdle hc hm =>
    exact h.reads_stay hd (fun _ => rfl) rfl (obtained_of_look hc) id
      fun _ hl => ⟨hl, List.not_mem_nil⟩
  | readClosed hm hi =>
    have hin := h.inbound_of_readable (Bool.and_eq_true_iff.1 hm).2
    rw [hi] at hin
    cases hin
  | lookDry hc hm hi hv =>
    obtain rfl : x.due s = left := hd
    obtain rfl := h.wired.inbound s _ hi
    rw [lane_after_other, Stimulus.received, obtained_of_look hc, List.append_nil, queue_update]
    exact hl.dry hv
  | @lookDelimiter c e q f fs s' a hc hm hi hv hf hon =>
    obtain rfl : x.due s = left := hd
    have ht := h.reads_take hm hi hv s' fun hr => absurd rfl (State.isReadable_of_on hon hr).2.1
    rw [lane_other, hf, if_pos rfl] at ht
    rw [lane_after_other, Stimulus.received, obtained_of_look hc]
    exact ht
  | @readFrame q f fs hm hi hv hf =>
    obtain rfl : x.due s = left := hd
    have ht := h.reads_take hm hi hv (x.pipe s).state fun _ => hf
    rw [lane_other, hf, if_neg Bool.false_ne_true] at ht
    rw [lane_after_other]
    exact ht
  | terminateReleased hon ha hq =>
    exact h.reads_stay hd (fun _ => rfl) rfl rfl (fun hr => (State.isReadable_of_on hon hr).1)
      fun _ hl => ⟨hl, List.not_mem_nil⟩
  | terminate hon ha hq hall =>
    exact h.reads_stay hd (h.update_outbound (Pipe.outbound_of_signalled hq) _) rfl rfl
      (fun hr => (State.isReadable_of_on hon hr).1) fun _ hl => ⟨hl, List.not_mem_nil⟩
  | terminateFault hon ha hq hall =>
    exact h.reads_stay hd (h.update_outbound (Pipe.outbound_of_signalled hq) _) rfl rfl
      (fun hr => (State.isReadable_of_on hon hr).1) fun _ hl => ⟨hl, List.not_mem_nil⟩
  | hiccup hs hi =>
    obtain rfl : x.due s = left := hd
    rw [lane_after_other, Stimulus.received, h.wired.id, queue_update]
    have := hl.renew
    simpa [Call.obtained] using this
  | pipeTerm hon =>
    exact h.reads_stay hd (fun _ => rfl) rfl rfl (fun hr => (State.isReadable_of_on hon hr).1)
      fun _ hl => ⟨hl, by simp [Stimulus.taken]⟩
  | @pipeTermAck q s' a hi hon =>
    obtain rfl := h.wired.inbound s _ hi
    have hfed : (x.pipe s.other).outbound.map QueueId.generation = none := by
      rw [h.released_of_ack hd]
      rfl
    have hn : s'.isReadable = true → False := fun hr => (State.isReadable_of_on hon hr).2.2 rfl
    have hc := hl.close hfed s' (by rw [← Bool.not_eq_true]; exact hn)
    have hs := hc.stay (x.pipe s.other).state s' (x.pipe s).inActive
      (CommandOf.activateRead ∈ left) id (fun _ => id) id fun hr => (hn hr).elim
    rw [lane_after_other, Stimulus.received, List.append_nil, queue_update]
    exact hs
  | activateRead hi hs =>
    exact h.reads_stay hd (fun _ => rfl) rfl rfl id fun _ hl => by cases hl
  | activateReadIgnored hi =>
    refine h.reads_stay hd (fun _ => rfl) rfl rfl id fun hr hl => ?_
    rcases hi with hi | hi
    · cases hi.symm.trans hl
    · cases hi.symm.trans hr
  | hiccupMoved hs hq =>
    -- What is moved are queues of the peer, none that this end reads.
    refine h.reads_stay hd (fun g => ?_) rfl rfl id fun _ hl => ⟨hl, by simp [Stimulus.taken]⟩
    exact (Function.update_of_ne (h.inbound_ne_of_notice hd hq g).2.1 ..).trans
      (h.moveStream_of_notice hd hq g)
  | hiccupUnflushed hs hq => cases h.agrees.outbound_of_terminating hs ▸ hq
  | _ =>
    exact h.reads_stay hd (fun _ => rfl) rfl rfl id fun _ hl => ⟨hl, by simp [Stimulus.taken]⟩

/-- What an end staged is left alone by the other one. -/
theorem Sound.staged (h : Sound x) (hd : x.due s = st.taken ++ left)
    (hr : Reacts (x.pipe s) x.view st r) {q : QueueId}
    (hq : (x.pipe s.other).outbound = some q) :
    (r.view q).ready = (x.view q).ready ∧ (r.view q).fragments = (x.view q).fragments := by
  obtain ⟨g, rfl, -, hflow⟩ := h.flows_of_outbound hq
  rw [Side.other_other]
  have hle : g ≤ (x.pipe s).generation := by
    have := hflow.le
    rwa [lane_other] at this
  have hsame : ∀ {v : View}, v (.inbound s.id g) = x.view (.inbound s.id g) →
      (v (.inbound s.id g)).ready = (x.view (.inbound s.id g)).ready ∧
        (v (.inbound s.id g)).fragments = (x.view (.inbound s.id g)).fragments :=
    fun hv => hv ▸ ⟨rfl, rfl⟩
  have hin : ∀ (q' : QueueId) (fs : List Frame) (idle : Bool),
      (update x.view q' { x.view q' with visible := fs, idle } (.inbound s.id g)).ready =
          (x.view (.inbound s.id g)).ready ∧
        (update x.view q' { x.view q' with visible := fs, idle } (.inbound s.id g)).fragments =
          (x.view (.inbound s.id g)).fragments := fun q' fs idle => by
    by_cases he : QueueId.inbound s.id g = q'
    · subst he
      rw [Function.update_self]
      exact ⟨rfl, rfl⟩
    · rw [Function.update_of_ne he]
      exact ⟨rfl, rfl⟩
  cases hr with
  | writeAccepted hf ho hs hn hq' => exact hsame (h.update_outbound hq' _ g)
  | flush hs hq' => exact hsame (h.update_outbound hq' _ g)
  | rollback hq' hall => exact hsame (h.update_outbound hq' _ g)
  | rollbackFault hq' hall => exact hsame (h.update_outbound hq' _ g)
  | terminate hon ha hq' hall =>
    exact hsame (h.update_outbound (Pipe.outbound_of_signalled hq') _ g)
  | terminateFault hon ha hq' hall =>
    exact hsame (h.update_outbound (Pipe.outbound_of_signalled hq') _ g)
  | lookDry hc hm hi hv => exact hin _ (x.view _).visible true
  | lookDelimiter hc hm hi hv hf hon => exact hin _ _ (x.view _).idle
  | readFrame hm hi hv hf => exact hin _ _ (x.view _).idle
  | pipeTermAck hi hon => exact hin _ _ true
  | hiccup hs hi =>
    -- The fresh queue is newer than the one the other end feeds.
    refine hsame (Function.update_of_ne (fun he => ?_) ..)
    have := (QueueId.inbound.inj he).2
    omega
  | hiccupMoved hs hq' =>
    exact hsame ((Function.update_of_ne (h.inbound_ne_of_notice hd hq' g).2.1 ..).trans
      (h.moveStream_of_notice hd hq' g))
  | hiccupUnflushed hs hq' => cases h.agrees.outbound_of_terminating hs ▸ hq'
  | _ => exact ⟨rfl, rfl⟩

/-! ## Every reachable pair -/

/-- **A reaction keeps a pair sound.** -/
theorem Sound.react (h : Sound x) (hd : x.due s = st.taken ++ left)
    (hr : Reacts (x.pipe s) x.view st r) : Sound (x.after s st r left) where
  wired := h.wired.react hd hr
  agrees := h.agrees.react hd hr h.terminated_of_delimiter
  lanes s' := by
    rcases s.eq_or_eq_other s' with rfl | rfl
    · exact h.writes hd hr
    · exact h.reads hd hr

theorem Sound.equip (h : Sound x) (s : Side) (sink : Option Sink) (identity : Option Identity) :
    Sound (x.equip s sink identity) where
  wired := h.wired.equip s sink identity
  agrees := h.agrees.equip s sink identity
  lanes s' := by
    obtain ⟨k, i, he⟩ := x.pipe_equip s sink identity s'
    obtain ⟨k', i', he'⟩ := x.pipe_equip s sink identity s'.other
    have hlane : (x.equip s sink identity).lane s' = x.lane s' := by
      unfold Pair.lane
      rw [he, he']
      rfl
    rw [hlane]
    exact h.lanes s'

theorem sound_start {pipe : Side → Pipe} (h : ∀ s, Link.Fresh (pipe s) s) :
    Sound (start pipe) where
  wired := wired_start h
  agrees := agrees_start h
  lanes s := by
    have hl : (start pipe).lane s =
        { queue := fun _ => {}
          fed := some 0
          current := 0
          writer := .active
          reader := .active
          looking := true
          woken := .activateRead ∈ ([] : List Command)
          written := []
          obtained := [] } := by
      simp only [Pair.lane, start, (h s).outbound, (h s).state, (h s.other).state,
        (h s.other).generation, (h s.other).inActive]
      rfl
    rw [hl]
    refine ⟨fun g hg => ?_, fun hn => by simp at hn, fun f hf => absurd hf List.not_mem_nil,
      fun _ _ => rfl, fun _ hl => by cases hl⟩
    obtain rfl : 0 = g := Option.some.inj hg
    exact ⟨Nat.le_refl _, fun _ _ => rfl, ⟨whole_nil, fun f hf => absurd hf List.not_mem_nil⟩, rfl,
      fun _ f hf => absurd hf List.not_mem_nil, fun _ ht => by cases ht⟩

/-- **Every reachable pair is sound.** -/
theorem Reached.sound {config : Config} {a b : Link.Plan} (h : Reached config a b x) :
    Sound x := by
  induction h with
  | fresh h => exact sound_start (Link.fresh_of_create h)
  | step _ hs ih =>
    cases hs with
    | react hd hr => exact ih.react hd hr
    | equip s sink identity => exact ih.equip s sink identity

end Pair

/-- **Every run is followed by a pair that is sound.** -/
theorem Link.Run.exists_sound {config : Config} {a b : Link.Plan}
    {may : Link → Link.Step → Prop} {tr : Link.Trace} {l : Link}
    (h : Link.Run config a b may tr l) : ∃ x, Pair.Follows tr l x ∧ Pair.Sound x := by
  obtain ⟨x, hx, hf⟩ := h.exists_follows
  exact ⟨x, hf, hx.sound⟩

end MessagePipe
