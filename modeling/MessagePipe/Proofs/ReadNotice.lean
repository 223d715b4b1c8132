import MessagePipe.Proofs.MidMessage

/-!
# What a reader is told to look for

A reader that ran dry is told to look again when its peer publishes in the queue where it parked:
`read_activated` says that inbound messages became available after the pipe had run dry (§6 of the
specification, and `process_activate_read`). The command that tells it does not say which queue that
was. So it matters what the reader did in the meantime: one that replaced its queue after it had run
dry, and ran dry again, takes the old command for a new one, and finds nothing. This is the only way
to be told in vain.

* `Pair.Prompt`: a reader that never replaced its queue after it had run dry. As long as it looks
  for frames it is not told to, and has not parked; it is told at most once, only where it parked,
  and when there is something to read.
* `Pair.Sound.prompt_reads`, `Pair.Sound.prompt_writes`: it is kept by whatever the reader does, but
  to replace its queue once it ran dry, and by whatever its peer does. The case of a peer that
  publishes is `Sound.prompt_publishes`.
* `Reacts.of_readActivated`: only one command tells a reader to look again, and only a reader that
  does not look.
* `Link.RenewedDry`: in a run, a side replaced its inbound queue after it had run dry.
* `Link.told_of_frames`: so whoever is told to look finds a frame, or replaced its queue like that.
* `Link.told_of_nothing`: a reader that is told in vain. The message it is told of is in the queue
  it replaced, and its peer has not heard of the new one.

Premise: open mailboxes. Nothing is lost by it: the message is moved on, and told of again
(`Proofs/WakeUp`).

Out of scope: what an owner does who is told in vain.
-/

namespace MessagePipe

open Function (update)

/-! ## What a flush does to a reader -/

namespace Segments

/-- A flush has nothing to publish, or there is something to read, and a reader that had parked is
told of it. -/
theorem flush_cases (c : Segments Frame) :
    c.flush.2 = c ∧ c.wake = [] ∨
      c.flush.2.visible ≠ [] ∧ c.flush.2.idle = false ∧
        c.wake = if c.idle then [.activateRead] else [] := by
  unfold wake flush
  split
  · exact .inl ⟨rfl, rfl⟩
  · next h => exact .inr ⟨by simp [h], rfl, rfl⟩

end Segments

theorem Action.activateRead_not_mem (a : Action) : .activateRead ∉ a.commands := by
  cases a with
  | deallocate ack => cases ack <;> decide
  | _ => decide

theorem Pipe.activateRead_not_mem_report (p : Pipe) (f : Frame) :
    .activateRead ∉ p.report f := by
  unfold report
  split <;> simp

namespace Pair

/-- Side `s` never replaced its queue after it had run dry. As long as it looks for frames it is not
told to, and has not parked; nor has it at a queue that its peer has yet to come to. -/
structure Prompt (pipe : Side → Pipe) (due : Side → List Command) (v : View) (s : Side) : Prop where
  looking : (pipe s).inActive = true →
    (v (.inbound s.id (pipe s).generation)).idle = false ∧ .activateRead ∉ due s
  once : (due s).count .activateRead ≤ 1
  told : .activateRead ∈ due s → (v (.inbound s.id (pipe s).generation)).visible ≠ []
  behind : ∀ g, (pipe s.other).outbound = some (.inbound s.id g) →
    ∀ i, g ≤ i → i < (pipe s).generation → (v (.inbound s.id i)).idle = false

variable {x : Pair} {s : Side} {st : Stimulus} {r : Reaction} {left : List Command}

/-- What is to be known of the reader after it reacted. -/
theorem Prompt.of_reader
    (looking : r.pipe.inActive = true →
      (r.view (.inbound s.id r.pipe.generation)).idle = false ∧ .activateRead ∉ left)
    (once : left.count .activateRead ≤ 1)
    (told : .activateRead ∈ left → (r.view (.inbound s.id r.pipe.generation)).visible ≠ [])
    (behind : ∀ g, (x.pipe s.other).outbound = some (.inbound s.id g) →
      ∀ i, g ≤ i → i < r.pipe.generation → (r.view (.inbound s.id i)).idle = false) :
    Prompt (x.after s st r left).pipe (x.after s st r left).due (x.after s st r left).view s := by
  constructor <;> simpa only [pipe_after_self, pipe_after_other, due_after_self, view_after]

/-- What is to be known of the reader after its peer reacted. -/
theorem Prompt.of_writer
    (looking : (x.pipe s.other).inActive = true →
      (r.view (.inbound s.other.id (x.pipe s.other).generation)).idle = false ∧
        .activateRead ∉ x.due s.other ++ r.posted)
    (once : (x.due s.other ++ r.posted).count .activateRead ≤ 1)
    (told : .activateRead ∈ x.due s.other ++ r.posted →
      (r.view (.inbound s.other.id (x.pipe s.other).generation)).visible ≠ [])
    (behind : ∀ g, r.pipe.outbound = some (.inbound s.other.id g) →
      ∀ i, g ≤ i → i < (x.pipe s.other).generation →
        (r.view (.inbound s.other.id i)).idle = false) :
    Prompt (x.after s st r left).pipe (x.after s st r left).due (x.after s st r left).view
      s.other := by
  constructor <;> simpa only [pipe_after_self, pipe_after_other, due_after_other, view_after,
    Side.other_other]

/-! ## The reader -/

/-- The reader goes on as before: it looks, and takes from its queue what it likes, or it does not,
and the queue stays. -/
theorem Prompt.reads_keep (h : Prompt x.pipe x.due x.view s) (hd : x.due s = st.taken ++ left)
    (hg : r.pipe.generation = (x.pipe s).generation) (hl : r.pipe.inActive = (x.pipe s).inActive)
    (hidle : ∀ g, (r.view (.inbound s.id g)).idle = (x.view (.inbound s.id g)).idle)
    (hvisible : (x.pipe s).inActive = false →
      ∀ g, (r.view (.inbound s.id g)).visible = (x.view (.inbound s.id g)).visible) :
    Prompt (x.after s st r left).pipe (x.after s st r left).due (x.after s st r left).view s := by
  have hmem : CommandOf.activateRead ∈ left → .activateRead ∈ x.due s := fun hm => by
    rw [hd]
    exact List.mem_append_right _ hm
  apply Prompt.of_reader
  case looking =>
    rw [hg, hl, hidle]
    intro hi
    obtain ⟨hparked, hnone⟩ := h.looking hi
    exact ⟨hparked, fun hm => hnone (hmem hm)⟩
  case once =>
    have := h.once
    rw [hd, List.count_append] at this
    omega
  case told =>
    intro hm
    have hi : (x.pipe s).inActive = false := by
      by_contra hi
      exact (h.looking (by simpa using hi)).2 (hmem hm)
    rw [hg, hvisible hi]
    exact h.told (hmem hm)
  case behind =>
    rw [hg]
    exact fun g hq i hle hlt => (hidle i).trans (h.behind g hq i hle hlt)

/-- The reader leaves its queues alone. -/
theorem Prompt.reads_stay (h : Prompt x.pipe x.due x.view s) (hd : x.due s = st.taken ++ left)
    (hg : r.pipe.generation = (x.pipe s).generation) (hl : r.pipe.inActive = (x.pipe s).inActive)
    (hv : ∀ g, r.view (.inbound s.id g) = x.view (.inbound s.id g)) :
    Prompt (x.after s st r left).pipe (x.after s st r left).due (x.after s st r left).view s :=
  h.reads_keep hd hg hl (fun g => by rw [hv]) fun _ g => by rw [hv]

/-- **A reader that does not replace its queue after it ran dry stays one.** -/
theorem Sound.prompt_reads (hx : Sound x) (h : Prompt x.pipe x.due x.view s)
    (hd : x.due s = st.taken ++ left) (hr : Reacts (x.pipe s) x.view st r)
    (hread : r.pipe.state.isReadable = true)
    (hn : st = .call .hiccup → (x.pipe s).state = .active → (x.pipe s).inActive = true) :
    Prompt (x.after s st r left).pipe (x.after s st r left).due (x.after s st r left).view s := by
  cases hr with
  | writeAccepted hf ho hs hn hq | flush hs hq | rollback hq | rollbackFault hq =>
    exact h.reads_stay hd rfl rfl (hx.update_outbound hq _)
  | terminate hon ha hq | terminateFault hon ha hq =>
    exact h.reads_stay hd rfl rfl (hx.update_outbound (Pipe.outbound_of_signalled hq) _)
  | hiccupMoved hs hq =>
    refine h.reads_stay hd rfl rfl fun g => ?_
    exact (Function.update_of_ne (hx.inbound_ne_of_notice hd hq g).2.1 ..).trans
      (hx.moveStream_of_notice hd hq g)
  | hiccupUnflushed hs hq => cases hx.agrees.outbound_of_terminating hs ▸ hq
  | readClosed hm hi =>
    have hin := hx.inbound_of_readable (Bool.and_eq_true_iff.1 hm).2
    rw [hi] at hin
    cases hin
  | lookDelimiter hc hm hi hv hf hon => exact absurd rfl (State.isReadable_of_on hon hread).2.1
  | pipeTermAck hi hon => exact absurd rfl (State.isReadable_of_on hon hread).2.2
  | @readFrame q f fs hm hi hv hf =>
    have hlook := (Bool.and_eq_true_iff.1 hm).1
    refine h.reads_keep hd rfl rfl (fun g => ?_) fun hi' => by cases hi'.symm.trans hlook
    dsimp only
    by_cases he : QueueId.inbound s.id g = q
    · rw [he, Function.update_self]
    · rw [Function.update_of_ne he]
  | @lookDry c reply q hc hm hi hv =>
    -- It parks at its newest queue.
    obtain rfl := hx.wired.inbound s q hi
    obtain ⟨-, hnone⟩ := h.looking (Bool.and_eq_true_iff.1 hm).1
    obtain rfl : x.due s = left := hd
    apply Prompt.of_reader
    case looking => exact fun hi => by cases hi
    case once => exact h.once
    case told => exact fun hm => absurd hm hnone
    case behind =>
      intro g hg i hle hlt
      dsimp only at hlt ⊢
      rw [Function.update_of_ne fun he => Nat.ne_of_lt hlt (QueueId.inbound.inj he).2]
      exact h.behind g hg i hle hlt
  | @hiccup q hs hi =>
    -- The queue that it leaves is not one where it parked.
    obtain ⟨hparked, hnone⟩ := h.looking (hn rfl hs)
    obtain rfl : x.due s = left := hd
    apply Prompt.of_reader
    case looking =>
      intro _
      dsimp only
      rw [hx.wired.id, Function.update_self]
      exact ⟨rfl, hnone⟩
    case once => exact h.once
    case told => exact fun hm => absurd hm hnone
    case behind =>
      intro g hg i hle hlt
      dsimp only at hlt ⊢
      rw [Function.update_of_ne fun he => Nat.ne_of_lt hlt (QueueId.inbound.inj he).2]
      rcases Nat.lt_succ_iff_lt_or_eq.1 hlt with hlt | rfl
      · exact h.behind g hg i hle hlt
      · exact hparked
  | activateRead hi hs =>
    have hd : x.due s = .activateRead :: left := hd
    have hvisible := h.told (by rw [hd]; exact List.mem_cons_self)
    have hlane := hx.lanes s.other
    rw [lane_other] at hlane
    have hnone : CommandOf.activateRead ∉ left := by
      have := h.once
      rw [hd, List.count_cons_self] at this
      exact List.count_eq_zero.1 (by omega)
    apply Prompt.of_reader
    case looking =>
      refine fun _ => ⟨?_, hnone⟩
      by_contra hparked
      exact hvisible (hlane.parked _ (by simpa using hparked))
    case once => rw [List.count_eq_zero.2 hnone]; exact Nat.zero_le 1
    case told => exact fun hm => absurd hm hnone
    case behind => exact h.behind
  | _ => exact h.reads_stay hd rfl rfl fun _ => rfl

/-! ## The writer -/

/-- The writer publishes nothing. -/
theorem Prompt.writes_keep (h : Prompt x.pipe x.due x.view s.other)
    (ho : ∀ q, r.pipe.outbound = some q → (x.pipe s).outbound = some q)
    (hp : .activateRead ∉ r.posted)
    (hidle : ∀ g, (r.view (.inbound s.other.id g)).idle = (x.view (.inbound s.other.id g)).idle)
    (hvisible : ∀ g, (r.view (.inbound s.other.id g)).visible =
      (x.view (.inbound s.other.id g)).visible) :
    Prompt (x.after s st r left).pipe (x.after s st r left).due (x.after s st r left).view
      s.other := by
  have hmem : CommandOf.activateRead ∈ x.due s.other ++ r.posted → .activateRead ∈ x.due s.other :=
    fun hm => (List.mem_append.1 hm).resolve_right hp
  apply Prompt.of_writer
  case looking =>
    rw [hidle]
    intro hi
    obtain ⟨hparked, hnone⟩ := h.looking hi
    exact ⟨hparked, fun hm => hnone (hmem hm)⟩
  case once =>
    rw [List.count_append, List.count_eq_zero.2 hp]
    exact h.once
  case told =>
    rw [hvisible]
    exact fun hm => h.told (hmem hm)
  case behind =>
    intro g hg i hle hlt
    rw [hidle]
    exact h.behind g (by rw [Side.other_other]; exact ho _ hg) i hle hlt

/-- **The writer publishes** in the queue it feeds, or in one that it comes to. The reader is told
only if it parked there. -/
theorem Sound.prompt_publishes (hx : Sound x) (h : Prompt x.pipe x.due x.view s.other) {g g' : Nat}
    {c : Segments Frame} {k : List Command}
    (hq : (x.pipe s).outbound = some (.inbound s.other.id g)) (hle : g ≤ g')
    (hcurrent : g' ≤ (x.pipe s.other).generation)
    (ho : r.pipe.outbound = some (.inbound s.other.id g'))
    (hv : r.view (.inbound s.other.id g') = c.flush.2)
    (hrest : ∀ i, g' < i → r.view (.inbound s.other.id i) = x.view (.inbound s.other.id i))
    (hidle : c.idle = (x.view (.inbound s.other.id g')).idle)
    (hvisible : c.visible = (x.view (.inbound s.other.id g')).visible)
    (hp : r.posted = k ++ c.wake) (hk : .activateRead ∉ k) :
    Prompt (x.after s st r left).pipe (x.after s st r left).due (x.after s st r left).view
      s.other := by
  have hbehind := h.behind g (by rw [Side.other_other]; exact hq)
  -- Nothing parks the reader, and nothing is taken from it.
  have hparks : ∀ i, g' ≤ i → (x.view (.inbound s.other.id i)).idle = false →
      (r.view (.inbound s.other.id i)).idle = false := by
    intro i hi hparked
    rcases Nat.eq_or_lt_of_le hi with rfl | hi
    · rw [hv]
      rcases c.flush_cases with ⟨he, -⟩ | ⟨-, he, -⟩
      · rw [he, hidle, hparked]
      · exact he
    · rw [hrest i hi, hparked]
  have htakes : ∀ i, g' ≤ i → (x.view (.inbound s.other.id i)).visible ≠ [] →
      (r.view (.inbound s.other.id i)).visible ≠ [] := by
    intro i hi hne
    rcases Nat.eq_or_lt_of_le hi with rfl | hi
    · rw [hv]
      rcases c.flush_cases with ⟨he, -⟩ | ⟨he, -⟩
      · rw [he, hvisible]
        exact hne
      · exact he
    · rw [hrest i hi]
      exact hne
  -- Who is told had parked at its newest queue, and was told nothing before.
  have hwake : c.wake = [] ∨ c.wake = [.activateRead] ∧ (x.pipe s.other).inActive = false ∧
      .activateRead ∉ x.due s.other ∧
      (r.view (.inbound s.other.id (x.pipe s.other).generation)).visible ≠ [] := by
    rcases c.flush_cases with ⟨-, hw⟩ | ⟨hne, -, hw⟩
    · exact .inl hw
    cases hparked : c.idle with
    | false => exact .inl (by rw [hw, hparked]; rfl)
    | true =>
      have hxparked := hidle.symm.trans hparked
      obtain rfl : g' = (x.pipe s.other).generation := by
        by_contra hn
        have := hbehind g' hle (by omega)
        rw [hxparked] at this
        cases this
      refine .inr ⟨by rw [hw, hparked]; rfl, ?_, fun hm => ?_, by rwa [hv]⟩
      · by_contra hi
        have := (h.looking (by simpa using hi)).1
        rw [hxparked] at this
        cases this
      · exact h.told hm ((hx.lanes s).parked _ hxparked)
  apply Prompt.of_writer
  case looking =>
    intro hi
    obtain ⟨hparked, hnone⟩ := h.looking hi
    refine ⟨hparks _ hcurrent hparked, ?_⟩
    rw [hp]
    rcases hwake with hw | ⟨-, hi', -⟩
    · simp [hw, hnone, hk]
    · cases hi.symm.trans hi'
  case once =>
    rw [hp, List.count_append, List.count_append, List.count_eq_zero.2 hk]
    rcases hwake with hw | ⟨hw, -, hnone, -⟩
    · rw [hw]
      exact h.once
    · rw [hw, List.count_eq_zero.2 hnone]
      exact Nat.le_refl 1
  case told =>
    intro hm
    rcases hwake with hw | ⟨-, -, -, hne⟩
    · refine htakes _ hcurrent (h.told ?_)
      simpa [hp, hw, hk] using hm
    · exact hne
  case behind =>
    intro g₁ hg₁ i hi hlt
    obtain rfl : g' = g₁ := (QueueId.inbound.inj (Option.some.inj (ho.symm.trans hg₁))).2
    exact hparks i hi (hbehind i (hle.trans hi) hlt)

/-- **Whatever its peer does, a reader that does not replace its queue after it ran dry stays
one.** -/
theorem Sound.prompt_writes (hx : Sound x) (h : Prompt x.pipe x.due x.view s.other)
    (hd : x.due s = st.taken ++ left) (hr : Reacts (x.pipe s) x.view st r) :
    Prompt (x.after s st r left).pipe (x.after s st r left).due (x.after s st r left).view
      s.other := by
  have hin : ∀ {q : QueueId} (c : Segments Frame), (x.pipe s).inbound = some q →
      ∀ g, update x.view q c (.inbound s.other.id g) = x.view (.inbound s.other.id g) :=
    fun c hq g => Function.update_of_ne (hx.wired.inbound s _ hq ▸ (inbound_ne s _ g).symm) ..
  have hkept : (∀ q, r.pipe.outbound = some q → (x.pipe s).outbound = some q) →
      .activateRead ∉ r.posted →
      (∀ g, r.view (.inbound s.other.id g) = x.view (.inbound s.other.id g)) →
      Prompt (x.after s st r left).pipe (x.after s st r left).due (x.after s st r left).view
        s.other := fun ho hp hv =>
    h.writes_keep ho hp (fun g => by rw [hv]) fun g => by rw [hv]
  -- Staging is not publishing.
  have hstaged : ∀ {q : QueueId} {c : Segments Frame}, r.view = update x.view q c →
      c.idle = (x.view q).idle → c.visible = (x.view q).visible →
      (∀ q, r.pipe.outbound = some q → (x.pipe s).outbound = some q) →
      .activateRead ∉ r.posted →
      Prompt (x.after s st r left).pipe (x.after s st r left).due (x.after s st r left).view
        s.other := fun {q c} hv hidle hvisible ho hp => by
    refine h.writes_keep ho hp (fun g => ?_) fun g => ?_ <;> rw [hv] <;>
      by_cases he : QueueId.inbound s.other.id g = q
    · rw [he, Function.update_self, hidle]
    · rw [Function.update_of_ne he]
    · rw [he, Function.update_self, hvisible]
    · rw [Function.update_of_ne he]
  cases hr with
  | writeAccepted hf ho hs hn hq =>
    exact hstaged rfl (Segments.idle_write ..) (Segments.visible_write ..) (fun _ => id)
      List.not_mem_nil
  | rollback hq hall => exact hstaged rfl rfl rfl (fun _ => id) List.not_mem_nil
  | rollbackFault hq hall => exact hstaged rfl rfl rfl (fun _ => id) List.not_mem_nil
  | @terminateFault d s' a q hon ha hq hall =>
    exact hstaged rfl rfl rfl (fun _ => Pipe.outbound_of_signalled (s := s') (a := a))
      (Action.activateRead_not_mem _)
  | @flush q hs hq =>
    obtain ⟨g, rfl, -, hflow⟩ := hx.flows_of_outbound hq
    refine hx.prompt_publishes h (c := x.view (.inbound s.other.id g)) (k := []) hq
      (Nat.le_refl g) hflow.le hq (Function.update_self ..) (fun i hi => ?_) rfl rfl rfl
      List.not_mem_nil
    exact Function.update_of_ne (fun he => Nat.ne_of_gt hi (QueueId.inbound.inj he).2) ..
  | @terminate d s' a q hon ha hq hall =>
    have hq' := Pipe.outbound_of_signalled hq
    obtain ⟨g, rfl, -, hflow⟩ := hx.flows_of_outbound hq'
    refine hx.prompt_publishes h (c := (x.view (.inbound s.other.id g)).ended) hq'
      (Nat.le_refl g) hflow.le hq (Function.update_self ..) (fun i hi => ?_) rfl rfl rfl
      (Action.activateRead_not_mem _)
    exact Function.update_of_ne (fun he => Nat.ne_of_gt hi (QueueId.inbound.inj he).2) ..
  | @hiccupMoved w retired old hs hq =>
    -- The next queue is empty before the stream is moved there.
    obtain ⟨g, n, rfl, rfl, rfl, hlt, -⟩ := hx.wired.of_notice hd hq
    obtain ⟨g', he, -, hflow⟩ := hx.flows_of_outbound hq
    obtain rfl : g = g' := (QueueId.inbound.inj he).2
    have hne : ∀ {i j : Nat}, i ≠ j → QueueId.inbound s.other.id i ≠ .inbound s.other.id j :=
      fun hij he => hij (QueueId.inbound.inj he).2
    have hmoved := hx.moveStream_next hq
    have hblank := hflow.blank (g + 1) (Nat.lt_succ_self g)
    refine hx.prompt_publishes h (k := []) hq (Nat.le_succ g) (by omega) rfl
      (Function.update_self ..) (fun i hi => ?_) (by rw [hmoved]) ?_ rfl List.not_mem_nil
    · exact (Function.update_of_ne (hne (by omega)) ..).trans
        (x.view.moveStream_of_ne (hne (by omega)) (hne (by omega)) (hne (by omega)))
    · rw [hmoved]
      exact (List.append_eq_nil_iff.1 (List.append_eq_nil_iff.1 hblank).1).1.symm
  | hiccupUnflushed hs hq => cases hx.agrees.outbound_of_terminating hs ▸ hq
  | lookDry hc hm hi hv => exact hkept (fun _ => id) List.not_mem_nil (hin _ hi)
  | readFrame hm hi hv hf =>
    exact hkept (fun _ => id) (Pipe.activateRead_not_mem_report _ _) (hin _ hi)
  | hiccup hs hi =>
    refine hkept (fun _ => id) (by simp) fun g => ?_
    dsimp only
    rw [hx.wired.id, Function.update_of_ne (inbound_ne s _ g).symm]
  | @lookDelimiter c reply q f fs s' a hc hm hi hv hf hon =>
    exact hkept (fun _ => Pipe.outbound_of_signalled (s := s') (a := a))
      (Action.activateRead_not_mem _) (hin _ hi)
  | @terminateReleased d s' a hon ha hq =>
    exact hkept (fun _ => Pipe.outbound_of_signalled (s := s') (a := a))
      (Action.activateRead_not_mem _) fun _ => rfl
  | @pipeTerm s' a hon =>
    exact hkept (fun _ => Pipe.outbound_of_signalled (s := s') (a := a))
      (Action.activateRead_not_mem _) fun _ => rfl
  | @pipeTermAck q s' a hi hon =>
    exact hkept (fun _ => Pipe.outbound_of_signalled (s := s') (a := a))
      (Action.activateRead_not_mem _) (hin _ hi)
  | _ => exact hkept (fun _ => id) List.not_mem_nil fun _ => rfl

end Pair

/-! ## Who is told, and who finds nothing -/

section Reacts

variable {p : Pipe} {v : View} {st : Stimulus} {r : Reaction}

/-- **Only one command tells a reader to look again,** and only a reader that does not look. -/
theorem Reacts.of_readActivated (h : Reacts p v st r) (hn : .readActivated ∈ r.events) :
    st = .command .activateRead ∧ p.inActive = false ∧ p.state.isReadable = true ∧
      r.pipe = { p with inActive := true } ∧ r.view = v := by
  cases h with
  | activateRead hi hs => exact ⟨rfl, hi, hs, rfl, rfl⟩
  | hiccupMoved hs hq =>
    dsimp only at hn
    split at hn <;> simp at hn
  | _ => simp at hn

/-- A reader that finds nothing answers so, and parks. -/
theorem Reacts.read_nil {q : QueueId} (h : Reacts p v (.call .read) r) (hm : p.mayRead = true)
    (hi : p.inbound = some q) (hv : (v q).visible = []) :
    r.result = .ok .nothing ∧ r.pipe.inActive = false ∧ (r.view q).idle = true := by
  obtain rfl := h.unique (.lookDry rfl hm hi hv)
  exact ⟨rfl, rfl, by dsimp only; rw [Function.update_self]⟩

end Reacts

namespace Link

variable {config : Config} {a b : Plan} {tr : Trace} {l : Link} {s : Side}

/-- In a run with the trace `tr`, side `s` replaced its inbound queue after it had run dry. -/
def RenewedDry (config : Config) (a b : Plan) (tr : Trace) (s : Side) : Prop :=
  ∃ before rep since l, tr = before ++ (.call s .hiccup, rep) :: since ∧
    OpenRun config a b before l ∧ (l.side s).pipe.state = .active ∧
    (l.side s).pipe.inActive = false

theorem RenewedDry.concat (h : RenewedDry config a b tr s) (e : Step × Report) :
    RenewedDry config a b (tr ++ [e]) s := by
  obtain ⟨before, rep, since, l, rfl, hrest⟩ := h
  exact ⟨before, rep, since ++ [e], l, by simp, hrest⟩

theorem OpenRun.prompt_iff (h : OpenRun config a b tr l) {x : Pair} (hf : Pair.Follows tr l x) :
    Pair.Prompt x.pipe x.due x.view s ↔
      Pair.Prompt (fun s => (l.side s).pipe) l.commands l.view s := by
  rw [funext hf.pipe, show x.due = l.commands from funext fun s => hf.due s (h.receiving s),
    hf.view]

/-- **A reader is told only what it is to know,** unless it replaced its queue after it had run
dry. -/
theorem OpenRun.prompt (h : OpenRun config a b tr l) (hn : ¬RenewedDry config a b tr s)
    (hr : (l.side s).pipe.state.isReadable = true) :
    Pair.Prompt (fun s => (l.side s).pipe) l.commands l.view s := by
  induction h with
  | fresh h =>
    obtain ⟨log, rfl⟩ := eq_of_create h
    cases s <;> exact ⟨fun _ => ⟨rfl, List.not_mem_nil⟩, Nat.zero_le 1,
      fun hm => absurd hm List.not_mem_nil, fun _ _ i _ hlt => absurd hlt (Nat.not_lt_zero i)⟩
  | @step tr l step h hs ih =>
    have hp := ih (fun hd => hn (hd.concat _)) (readable_of_step hr)
    have h' : OpenRun config a b _ (l.step step).2 := h.step hs
    obtain ⟨x, hf, hx⟩ := h.exists_sound
    rw [← prompt_iff h hf] at hp
    rcases l.step_cases step with ⟨s', st, r, hst, ht⟩ | ⟨-, hk, -, hi⟩
    · obtain ⟨left, hd, hreact, hf'⟩ := hf.took ht hst
      rw [← prompt_iff h' hf']
      rcases s'.eq_or_eq_other s with rfl | rfl
      · refine hx.prompt_reads hp hd hreact (ht.own ▸ hr) fun he hactive => ?_
        by_contra hdry
        rw [hf.pipe] at hactive hdry
        obtain ⟨c, rfl, rfl⟩ | ⟨-, c, rfl⟩ := hst
        · cases he
          exact hn ⟨tr, _, [], l, rfl, h, hactive, by simpa using hdry⟩
        · cases he
      · exact hx.prompt_writes hp hd hreact
    · rw [prompt_iff h hf] at hp
      have hcommands : (l.step step).2.commands = l.commands := funext fun s => by
        rw [commands, hi hs]
        rfl
      obtain ⟨k, i, hpipe, -⟩ := hk.pipe s
      obtain ⟨k', i', hpeer, -⟩ := hk.pipe s.other
      rw [hk.view, hcommands]
      refine ⟨?_, hp.once, ?_, ?_⟩ <;> simp only [hpipe, hpeer]
      exacts [hp.looking, hp.told, hp.behind]

/-- **Whoever is told to look again finds a frame,** or replaced its queue after it had run dry. A
step by which a pipe notifies that there is something to read is one of a reader that did not look,
and makes it look. Mostly there is a frame at the head of its queue, and the next read takes it: a
message's frame is returned, a delimiter consumed. Otherwise the next read finds nothing and parks
the reader again, so that what is published later is told of; and earlier in the run the reader had
replaced its inbound queue at a moment when it had run dry. -/
theorem told_of_frames (h : OpenRun config a b tr l) (step : Step)
    (hn : .readActivated ∈ Effect.events (l.step step).1.effects) :
    let s := step.side
    let l₁ := (l.step step).2
    let next := l₁.step (.call s .read)
    (l.side s).pipe.inActive = false ∧ (l₁.side s).pipe.mayRead = true ∧
    ∃ q, (l₁.side s).pipe.inbound = some q ∧
      ((∃ f fs, (l₁.view q).visible = f :: fs ∧ next.1.result = .ok f.answer ∧
          (next.2.view q).visible = fs) ∨
        (l₁.view q).visible = [] ∧ next.1.result = .ok .nothing ∧
          (next.2.side s).pipe.inActive = false ∧ (next.2.view q).idle = true ∧
          RenewedDry config a b tr s) := by
  intro s l₁ next
  rcases l.step_cases step with ⟨s', st, r, hst, ht⟩ | ⟨-, -, he, -⟩
  swap
  · rw [he] at hn
    cases hn
  obtain ⟨rfl, hi, hs, hpipe, hview⟩ := ht.reacts.of_readActivated (ht.notified ▸ hn)
  obtain rfl : s = s' := side_of_stimulus hst
  have hown : (l₁.side s).pipe = { (l.side s).pipe with inActive := true } := ht.own.trans hpipe
  have hm : (l₁.side s).pipe.mayRead = true := by
    rw [hown, Pipe.mayRead, hs]
    rfl
  obtain ⟨x, hf, hx⟩ := h.exists_sound
  have hin := hx.inbound_of_readable (s := s) (by rw [hf.pipe]; exact hs)
  rw [hf.pipe] at hin
  have hin₁ : (l₁.side s).pipe.inbound = some (.inbound s.id (l.side s).pipe.generation) := by
    rw [hown]
    exact hin
  refine ⟨hi, hm, _, hin₁, ?_⟩
  obtain ⟨r', ht'⟩ := l₁.took_call s .read
  cases hv : (l₁.view (.inbound s.id (l.side s).pipe.generation)).visible with
  | cons f fs =>
    obtain ⟨hres, hrest, -⟩ := ht'.reacts.read_head hm hin₁ hv
    exact .inl ⟨f, fs, rfl, ht'.result.trans hres, by rw [← hrest, ← ht'.view]⟩
  | nil =>
    obtain ⟨hres, hdry, hparked⟩ := ht'.reacts.read_nil hm hin₁ hv
    refine .inr ⟨rfl, ht'.result.trans hres, (congrArg Pipe.inActive ht'.own).trans hdry,
      by rw [← hparked, ← ht'.view], ?_⟩
    by_contra hnever
    have hp := OpenRun.prompt h hnever hs
    refine hp.told (by rw [ht.inbox]; exact List.mem_cons_self) ?_
    rw [← hv, ← hview, ← ht.view]

/-- A reader that replaced its queue, and ran dry after that, is told of a message and reads it. -/
theorem told_of_frames_once_moved :
    ∃ (tr : Trace) (l : Link), OpenRun {} { options := {} } { options := {} } tr l ∧
      .readActivated ∈ Effect.events (l.step (.deliver .b)).1.effects ∧
      (l.side .b).pipe.inActive = false ∧
      ((l.step (.deliver .b)).2.step (.call .b .read)).1.result =
        .ok (.frame (.ofBytes ⟨#[1]⟩)) := by
  have h : OpenRun {} { options := {} } { options := {} } _ _ := run_of_steps rfl
    [.call .b .hiccup, .call .b .read, .call .a (.write (.ofBytes ⟨#[1]⟩)), .deliver .a]
    ⟨rfl, rfl, rfl, rfl, trivial⟩
  obtain ⟨hdry, -, q, hq, hread⟩ := told_of_frames h (.deliver .b) (by decide)
  obtain rfl : q = .inbound ⟨2⟩ 1 := (Option.some.inj hq).symm
  refine ⟨_, _, h, by decide, hdry, ?_⟩
  obtain ⟨f, fs, hv, hres, -⟩ | ⟨hv, -⟩ := hread
  · obtain rfl : f = .ofBytes ⟨#[1]⟩ := (List.head_eq_of_cons_eq hv).symm
    exact hres
  · cases hv

/-- **A reader can be told in vain:** the message it is told of is in the queue it replaced, and its
peer has not heard of the new one. -/
theorem told_of_nothing :
    ¬∀ (config : Config) (a b : Plan) (tr : Trace) (l : Link) (step : Step),
      OpenRun config a b tr l → .readActivated ∈ Effect.events (l.step step).1.effects →
      ∃ q f fs, ((l.step step).2.side step.side).pipe.inbound = some q ∧
        ((l.step step).2.view q).visible = f :: fs := by
  intro h
  have hrun : OpenRun {} { options := {} } { options := {} } _ _ := run_of_steps rfl
    [.call .b .read, .call .a (.write (.ofBytes ⟨#[1]⟩)), .call .a .flush, .call .b .hiccup,
      .call .b .read]
    ⟨rfl, rfl, rfl, rfl, rfl, trivial⟩
  obtain ⟨q, f, fs, hq, hv⟩ := h _ _ _ _ _ (.deliver .b) hrun (by decide)
  obtain rfl : q = .inbound ⟨2⟩ 1 := (Option.some.inj hq).symm
  cases hv

end Link

end MessagePipe
