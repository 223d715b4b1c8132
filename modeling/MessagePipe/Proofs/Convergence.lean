import MessagePipe.Proofs.WakeUp

/-!
# Termination comes to an end, and to the same one on both sides

Every interleaving of the handshake converges (§5 and §8 of the specification). Once no command is
underway and neither end has anything left to read (`AtRest`), no end waits for the other one:
either nobody asked to terminate, or both ends are taken down.

* `Reacts.atDelimiter_of_unreadable`: what makes an end leave off reading, if its owner does not.
* `Run.not_active`: an end whose owner asked to terminate is out of normal operation for good.
* `Run.terminated_count`: every sink hears of the end of its endpoint once, and only then.
* `AtRest.not_pending`: an end that waits for the delimiter is not at rest, for the peer put one
  behind all it wrote, and there is nothing left to read only if it was consumed.
* `convergence`: the two outcomes. Where both ends are taken down, each sink has heard `terminated`
  once, and the states are equal: `doubleTerminated` if both ends sent a request, and `terminating`
  if one did.
* `convergence_of_one_request`: one end terminates, and both come to `terminating`. The end that is
  asked answers with an acknowledgment alone and never sends a request of its own, where §5 has one
  request and one acknowledgment of either side.

The joint states are those of `Proofs/Handshake`; with nothing underway only four pairs of stances
are left, and `check_read` tells which.

Premises: open mailboxes, and sinks on both sides for what they hear. Nothing is said of when a run
comes to rest; that deliveries end is in `Proofs/Pumping`.
-/

namespace MessagePipe

/-! ## What a reaction does to an endpoint for good -/

/-- A patient end reads on after its peer asked to terminate. -/
theorem State.isReadable_on_peerTerm {s s' : State} {a : Action}
    (h : s.on (.peerTerm true) = some (s', a)) : s'.isReadable = s.isReadable := by
  cases s <;> cases h <;> rfl

/-- An acknowledgment is taken by an end that is out of reading. -/
theorem State.unreadable_of_on_peerTermAck {s s' : State} {a : Action}
    (h : s.on .peerTermAck = some (s', a)) : s.isReadable = false := by
  cases s <;> cases h <;> rfl

section Reacts

variable {p : Pipe} {v : View} {st : Stimulus} {r : Reaction}

/-- No endpoint returns to normal operation. -/
theorem Reacts.not_active (h : Reacts p v st r) (hp : p.state ≠ .active) :
    r.pipe.state ≠ .active := by
  rcases h.state_cases with hs | ⟨sg, s, a, hon, rfl⟩
  · rw [hs]
    exact hp
  · exact State.on_ne_active hon

theorem Reacts.not_active_of_terminate {d : Bool} (h : Reacts p v (.call (.terminate d)) r) :
    r.pipe.state ≠ .active := by
  cases h with
  | lookIdle hc => cases hc
  | lookDry hc => cases hc
  | lookDelimiter hc => cases hc
  | terminateIgnored hon => exact Turn.on_terminate_ignore hon ▸ State.on_ne_active hon
  | terminateReleased hon ha hq => exact State.on_ne_active hon
  | terminate hon ha hq h => exact State.on_ne_active hon
  | terminateFault hon ha hq h => exact State.on_ne_active hon

theorem Reacts.sink (h : Reacts p v st r) : r.pipe.sink = p.sink := by
  cases h <;> rfl

theorem Reacts.identity (h : Reacts p v st r) : r.pipe.identity = p.identity := by
  cases h <;> rfl

/-- The end of an endpoint is notified as the endpoint is taken down. -/
theorem Reacts.terminated_count (h : Reacts p v st r) :
    (if p.isClosed then 1 else 0) + r.events.count .terminated =
      if r.pipe.isClosed then 1 else 0 := by
  cases h with
  | pipeTermAck hi hon =>
    unfold Pipe.isClosed
    rw [hi]
    rfl
  | hiccup hs hi =>
    unfold Pipe.isClosed
    rw [hi]
    rfl
  | hiccupMoved hs hq =>
    have hn : (if p.state = .active then [Event.hiccuped] else []).count .terminated = 0 := by
      split <;> rfl
    dsimp only
    rw [hn]
    rfl
  | _ => exact Nat.add_zero _

/-! ### How an endpoint leaves off reading -/

theorem Reacts.delay (h : Reacts p v st r) (hn : ∀ d, st ≠ .call (.terminate d)) :
    r.pipe.delay = p.delay := by
  cases h with
  | terminateIgnored | terminateReleased | terminate | terminateFault => exact absurd rfl (hn _)
  | _ => rfl

/-- Reading is not taken up again. -/
theorem Reacts.unreadable_of_unreadable (h : Reacts p v st r)
    (hs : p.state.isReadable = false) : r.pipe.state.isReadable = false := by
  rcases h.state_cases with he | ⟨sg, s, a, hon, rfl⟩
  · rw [he, hs]
  · by_contra hr
    cases (State.isReadable_of_on hon (Bool.of_not_eq_false hr)).1.symm.trans hs

/-- Whoever looks for a frame and comes to the delimiter goes on to another state, and reads
nothing. -/
theorem Reacts.of_delimiter {c : Call} (h : Reacts p v (.call c) r)
    (hc : c = .read ∨ c = .checkRead) (hd : p.AtDelimiter v) :
    (Stimulus.call c).received r = [] ∧
      ∃ s a, p.state.on .delimiterRead = some (s, a) ∧ r.pipe = p.signalled s a := by
  obtain ⟨hm, q, f, fs, hi, hv, hf⟩ := hd
  have hhead : ∀ {q' : QueueId} {g : Frame} {gs : List Frame}, p.inbound = some q' →
      (v q').visible = g :: gs → g.isDelimiter = false → False := fun hi' hv' hg => by
    obtain rfl := Option.some.inj (hi.symm.trans hi')
    obtain ⟨rfl, -⟩ := List.cons.inj (hv.symm.trans hv')
    cases hf.symm.trans hg
  cases h with
  | lookIdle _ hm' => cases hm'.symm.trans hm
  | readClosed _ hi' => cases hi'.symm.trans hi
  | checkReadClosed _ hi' => cases hi'.symm.trans hi
  | lookDry _ _ hi' hv' =>
    obtain rfl := Option.some.inj (hi.symm.trans hi')
    cases hv'.symm.trans hv
  | lookDelimiter he _ _ _ _ hon => exact ⟨Pair.obtained_of_look he, _, _, hon, rfl⟩
  | readFrame _ hi' hv' hf' => exact (hhead hi' hv' hf').elim
  | seeFrame _ hi' hv' hf' => exact (hhead hi' hv' hf').elim
  | _ => rcases hc with hc | hc <;> cases hc

/-- A patient endpoint that is not asked to terminate leaves off reading at the delimiter alone. -/
theorem Reacts.atDelimiter_of_unreadable (h : Reacts p v st r)
    (hn : ∀ d, st ≠ .call (.terminate d)) (hd : p.delay = true)
    (hs : p.state.isReadable = true) (hr : r.pipe.state.isReadable = false) :
    (st = .call .read ∨ st = .call .checkRead) ∧ p.AtDelimiter v := by
  cases h with
  | @lookDelimiter c e q f fs s a hc hm hi hv hf hon =>
    refine ⟨?_, hm, q, f, fs, hi, hv, hf⟩
    cases c <;> cases hc
    · exact .inl rfl
    · exact .inr rfl
  | terminateReleased | terminate | terminateFault => exact absurd rfl (hn _)
  | pipeTerm hon =>
    rw [hd] at hon
    cases (State.isReadable_on_peerTerm hon).symm.trans hr |>.symm.trans hs
  | pipeTermAck hi hon => cases (State.unreadable_of_on_peerTermAck hon).symm.trans hs
  | _ => cases hs.symm.trans hr

/-- The end of an endpoint is notified only once it is out of reading. -/
theorem Reacts.unreadable_of_terminated (h : Reacts p v st r) (ht : .terminated ∈ r.events) :
    p.state.isReadable = false := by
  cases h with
  | pipeTermAck hi hon => exact State.unreadable_of_on_peerTermAck hon
  | hiccupMoved hs hq =>
    dsimp only at ht
    split at ht <;> simp at ht
  | _ => simp at ht

end Reacts

theorem Sink.count_filter_hears (sink : Sink) (es : List Event) :
    (es.filter sink.hears).count .terminated = es.count .terminated :=
  List.count_filter (by cases sink <;> rfl)

namespace Link

variable {config : Config} {a b : Plan} {may : Link → Step → Prop} {tr : Trace} {l : Link}

theorem step_not_active {s : Side} (hp : (l.side s).pipe.state ≠ .active) (step : Step) :
    ((l.step step).2.side s).pipe.state ≠ .active := by
  rcases l.step_cases_at step s with ⟨st, r, -, ht⟩ | ha
  · rw [ht.own]
    exact ht.reacts.not_active hp
  · obtain ⟨k, i, he⟩ := ha.pipe
    rw [he]
    exact hp

/-- **An end whose owner asked to terminate is out of normal operation for good.** -/
theorem Run.not_active (h : Run config a b may tr l) {s : Side} {d : Bool} {rep : Report}
    (he : (.call s (.terminate d), rep) ∈ tr) : (l.side s).pipe.state ≠ .active := by
  induction h with
  | fresh => cases he
  | @step tr l step h hs ih =>
    rcases List.mem_append.1 he with he | he
    · exact step_not_active (ih he) step
    · obtain rfl := (Prod.ext_iff.1 (List.mem_singleton.1 he)).1
      obtain ⟨r, ht⟩ := l.took_call s (.terminate d)
      rw [ht.own]
      exact ht.reacts.not_active_of_terminate

/-- What is known of a side with a sink: it is listened to, and the end was notified if it came. -/
structure Heard (e : Endpoint) : Prop where
  sink : e.pipe.sink.isSome = true
  listening : e.listening = true
  count : e.events.count .terminated = if e.pipe.isClosed then 1 else 0

/-- **Every sink hears of the end of its endpoint once, and only then.** -/
theorem Run.terminated_count (h : Run config a b may tr l) (ha : a.sink.isSome = true)
    (hb : b.sink.isSome = true) (s : Side) : Heard (l.side s) := by
  induction h with
  | fresh h =>
    obtain ⟨log, rfl⟩ := eq_of_create h
    cases s with
    | a => exact ⟨ha, ha, rfl⟩
    | b => exact ⟨hb, hb, rfl⟩
  | @step tr l step h hs ih =>
    rcases l.step_cases step with ⟨s', st, r, -, ht⟩ | ⟨-, hk, -⟩
    · rcases s'.eq_or_eq_other s with rfl | rfl
      · obtain ⟨sink, hsink⟩ := Option.isSome_iff_exists.1 ih.sink
        have hr := ht.reacts.sink.trans hsink
        refine ⟨?_, (ht.listening s).trans ih.listening, ?_⟩
        · rw [ht.own, hr]
          rfl
        · rw [ht.heard sink hr ih.listening, List.count_append, sink.count_filter_hears, ih.count,
            ht.own, ht.reacts.terminated_count]
      · exact ⟨ht.peer ▸ ih.sink, (ht.listening _).trans ih.listening,
          by rw [ht.unheard, ht.peer]; exact ih.count⟩
    · obtain ⟨k, i, hp, hsink⟩ := hk.pipe s
      refine ⟨?_, hk.listening s ih.listening, ?_⟩
      · rw [hp, hsink ih.sink]
        exact ih.sink
      · rw [hk.events, hp]
        exact ih.count

/-- Nothing is underway, and neither end has anything to read that would take it any further. -/
structure AtRest (l : Link) : Prop where
  taken : ∀ s, l.commands s = []
  result : ∀ s, (l.step (.call s .checkRead)).1.result = .ok (.flag false)
  state : ∀ s, ((l.step (.call s .checkRead)).2.side s).pipe.state = (l.side s).pipe.state

/-- An end that still reads of a peer that asked to terminate finds the delimiter at the latest. -/
theorem AtRest.not_pending (hr : AtRest l) (h : OpenRun config a b tr l) {s : Side}
    (hp : (l.side s).pipe.state = .pending) (ht : (l.side s.other).pipe.state = .terminated) :
    False := by
  have hread : (l.side s).pipe.state.isReadable = true := by rw [hp]; rfl
  obtain ⟨q, hq, f, fs, hv⟩ : ∃ q, (l.side s.other).pipe.outbound = some q ∧
      ∃ f fs, (l.view q).visible = f :: fs := by
    obtain ⟨x, hf, hx⟩ := h.exists_sound
    rw [← hf.pipe] at hread ht
    obtain ⟨g, hg, ho⟩ := hx.fed_of_readable hread
    have hl := hx.lanes s.other
    rw [Pair.lane_other] at hl hg
    obtain ⟨fs, hv, -⟩ := (hl.flows g hg).ended hread ht
    rw [← hf.pipe, ← hf.view]
    exact ⟨_, ho, List.exists_cons_of_ne_nil (hv ▸ by simp)⟩
  have hs : Settled l s q := by
    refine ⟨hread, hq, ?_, fun w r => ?_⟩ <;> rw [hr.taken] <;> exact List.not_mem_nil
  obtain ⟨hm, hi⟩ := hs.mayRead h (by rw [hv]; exact List.cons_ne_nil f fs)
  obtain ⟨r, htook⟩ := l.took_call s .checkRead
  obtain ⟨hres, -, hon⟩ := htook.reacts.checkRead_head hm hi hv
  -- Nothing but the delimiter makes the answer false, and it leads out of the state.
  have hd : f.isDelimiter = true := by
    have := htook.result.symm.trans (hr.result s)
    rw [hres] at this
    simpa using this
  obtain ⟨act, hon⟩ := hon hd
  have hst := hr.state s
  rw [htook.own] at hst
  rw [hst, hp] at hon
  cases hon

/-- **At rest, nobody asked to terminate and both ends are in operation, or both ends are taken
down.** Then they are in the same state, which says whether both of them asked, and each sink heard
of it once. -/
theorem convergence (h : OpenRun config a b tr l) (ha : a.sink.isSome = true)
    (hb : b.sink.isSome = true) (hr : AtRest l) :
    ((∀ s d rep, (.call s (.terminate d), rep) ∉ tr) ∧ ∀ s, (l.side s).pipe.state = .active) ∨
      ∀ s, (l.side s).pipe.isClosed = true ∧ (l.side s).events.count .terminated = 1 ∧
        (l.side s).pipe.state =
          if .pipeTerm ∈ tr.posted .a ∧ .pipeTerm ∈ tr.posted .b then .doubleTerminated
          else .terminating := by
  obtain ⟨x, hf, hx⟩ := h.exists_sound
  have hd : ∀ s, (x.stance s).due = [] := fun s => by
    rw [Pair.stance, hf.due s (h.receiving s), hr.taken]
    rfl
  have hst : ∀ s, (x.stance s).state = (l.side s).pipe.state := fun s =>
    congrArg Pipe.state (hf.pipe s)
  have hcl : ∀ s, (x.stance s).closed = (l.side s).pipe.isClosed := fun s =>
    congrArg Pipe.isClosed (hf.pipe s)
  have hask : ∀ s, (x.stance s).asked = decide (.pipeTerm ∈ tr.posted s) := fun s => by
    rw [← hf.posted]
    rfl
  rcases (hx.agrees.meet .a).of_idle (hd .a) (hd .b) with
    ⟨h1, h2⟩ | (⟨h1, h2⟩ | ⟨h1, h2⟩) | ⟨h1, h2, h3, h4⟩
  · have hact : ∀ s, (l.side s).pipe.state = .active := by
      rintro (_ | _)
      · exact (hst .a).symm.trans h1
      · exact (hst .b).symm.trans h2
    exact .inl ⟨fun s d rep he => h.not_active he (hact s), hact⟩
  · exact (hr.not_pending h (s := .a) ((hst .a).symm.trans h1) ((hst .b).symm.trans h2)).elim
  · exact (hr.not_pending h (s := .b) ((hst .b).symm.trans h2) ((hst .a).symm.trans h1)).elim
  · right
    have hclosed : ∀ s, (l.side s).pipe.isClosed = true := by
      rintro (_ | _)
      · exact (hcl .a).symm.trans h1
      · exact (hcl .b).symm.trans h2
    have hsame : ∀ s, (l.side s).pipe.state = (x.stance .a).state := by
      rintro (_ | _)
      · exact (hst .a).symm
      · exact (hst .b).symm.trans h3.symm
    intro s
    refine ⟨hclosed s, ?_, ?_⟩
    · rw [(h.terminated_count ha hb s).count, hclosed, if_pos rfl]
    · rw [hsame, h4, hask, show (x.stance Side.a.other).asked = _ from hask .b]
      simp

/-- One owner asks to terminate, and the other end reads the delimiter before it answers. -/
theorem convergence_of_one_request :
    ∃ (tr : Trace) (l : Link), OpenRun {} { options := {} } { options := {} } tr l ∧ AtRest l ∧
      ∀ s, (l.side s).pipe.isClosed = true ∧ (l.side s).events.count .terminated = 1 ∧
        (l.side s).pipe.state =
          if .pipeTerm ∈ tr.posted .a ∧ .pipeTerm ∈ tr.posted .b then .doubleTerminated
          else .terminating := by
  have h : OpenRun {} { options := {} } { options := {} } _ _ := run_of_steps rfl
    [.call .a (.terminate true), .deliver .b, .call .b .checkRead, .deliver .a, .deliver .b]
    ⟨rfl, rfl, rfl, rfl, rfl, trivial⟩
  refine ⟨_, _, h, ?_⟩
  suffices hr : AtRest _ from
    ⟨hr, (convergence h rfl rfl hr).resolve_left fun hn => hn.1 .a true _ List.mem_cons_self⟩
  exact ⟨fun | .a => by decide | .b => by decide, fun | .a => by decide | .b => by decide,
    fun | .a => by decide | .b => by decide⟩

end Link

end MessagePipe
