import MessagePipe.Proofs.Stream

/-!
# No reader misses what was published

Readers that observe empty wait for `activate-read` (§5 of the specification): a reader that ran dry
does not look again until it is told to. It is told to in time: whenever the queue its peer feeds
has something to read, the command that wakes the reader is underway, or the notice of a replaced
queue, on which the peer publishes anew.

* `Pair.Wired.fed_newest`: the queue the reader has now is fed, or the notice of it is underway.
* `Pair.Sound.wakes`: the two commands that can be underway to or from such a reader. The first is
  the field `awake` of `Lane.Sound`: a reader that does not look has parked at its queue, or is
  told; and one that has parked has nothing to read.
* `Pair.Sound.mayRead`: once neither is underway, the reader looks, and at the queue that is fed.
* `Link.Settled`: that a side reads, and nothing is underway that says where or whether to look.
  `Settled.step_read` and `Settled.run_read` read on from there, one frame and all of them.
* `Link.wake_up`: so of every link that a run reaches; and once neither is underway, reading gives
  every frame that was published, in order, and asking tells whether there is one. A delimiter is
  read as nothing, and ends it.
* `Link.wake_up_of_parked`: a reader that ran dry is told of the next message, and a stream that is
  moved on is published anew.

Premises: open mailboxes, and an end still in reading.

Out of scope: that the wake-up is taken, which is up to the owner, and that it is never in vain,
which fails (`Proofs/ReadNotice`).
-/

namespace MessagePipe

/-- What a read answers that finds a frame at the head of its queue. -/
def Frame.answer (f : Frame) : Reply :=
  if f.isDelimiter then .nothing else .frame f

/-- How an endpoint reads that finds a frame at the head of its queue. -/
theorem Reacts.read_head {p : Pipe} {v : View} {r : Reaction} {q : QueueId} {f : Frame}
    {fs : List Frame} (h : Reacts p v (.call .read) r) (hm : p.mayRead = true)
    (hi : p.inbound = some q) (hv : (v q).visible = f :: fs) :
    r.result = .ok f.answer ∧ (r.view q).visible = fs ∧
      (f.isDelimiter = true ∨
        r.pipe.state = p.state ∧ r.posted.filter CommandOf.isHiccup = []) := by
  cases h with
  | lookIdle hc hm' => cases hm'.symm.trans hm
  | readClosed hm' hi' => cases hi'.symm.trans hi
  | lookDry hc hm' hi' hv' =>
    obtain rfl := Option.some.inj (hi'.symm.trans hi)
    cases hv'.symm.trans hv
  | lookDelimiter hc hm' hi' hv' hf hon =>
    obtain rfl := Option.some.inj (hi'.symm.trans hi)
    obtain ⟨rfl, rfl⟩ := List.cons.inj (hv'.symm.trans hv)
    cases hc
    exact ⟨by rw [Frame.answer, if_pos hf], v.visible_update_self ..,
      .inl hf⟩
  | readFrame hm' hi' hv' hf =>
    obtain rfl := Option.some.inj (hi'.symm.trans hi)
    obtain ⟨rfl, rfl⟩ := List.cons.inj (hv'.symm.trans hv)
    exact ⟨by rw [Frame.answer, hf]; rfl, v.visible_update_self ..,
      .inr ⟨rfl, Pipe.filter_report (fun _ => rfl) ..⟩⟩

/-- How an endpoint answers that finds a frame at the head of its queue when it is only asked. -/
theorem Reacts.checkRead_head {p : Pipe} {v : View} {r : Reaction} {q : QueueId} {f : Frame}
    {fs : List Frame} (h : Reacts p v (.call .checkRead) r) (hm : p.mayRead = true)
    (hi : p.inbound = some q) (hv : (v q).visible = f :: fs) :
    r.result = .ok (.flag (!f.isDelimiter)) ∧
      ((r.view q).visible = if f.isDelimiter then fs else f :: fs) ∧
      (f.isDelimiter = true → ∃ a, p.state.on .delimiterRead = some (r.pipe.state, a)) := by
  cases h with
  | lookIdle hc hm' => cases hm'.symm.trans hm
  | checkReadClosed hm' hi' => cases hi'.symm.trans hi
  | lookDry hc hm' hi' hv' =>
    obtain rfl := Option.some.inj (hi'.symm.trans hi)
    cases hv'.symm.trans hv
  | lookDelimiter hc hm' hi' hv' hf hon =>
    obtain rfl := Option.some.inj (hi'.symm.trans hi)
    obtain ⟨rfl, rfl⟩ := List.cons.inj (hv'.symm.trans hv)
    cases hc
    exact ⟨by rw [hf]; rfl, (v.visible_update_self ..).trans (if_pos hf).symm, fun _ => ⟨_, hon⟩⟩
  | seeFrame hm' hi' hv' hf =>
    obtain rfl := Option.some.inj (hi'.symm.trans hi)
    obtain ⟨rfl, rfl⟩ := List.cons.inj (hv'.symm.trans hv)
    exact ⟨by rw [hf]; rfl, by rw [hf]; exact hv', fun hd => by cases hf.symm.trans hd⟩

namespace Pair

variable {x : Pair} {s : Side} {q : QueueId}

/-- The newest queue is fed, or the notice of a newer one is underway. -/
theorem Wired.fed_newest (h : Wired x) (hq : (x.pipe s.other).outbound = some q) :
    q = .inbound s.id (x.pipe s).generation ∨ ∃ w r, .hiccup w r ∈ x.due s.other := by
  obtain ⟨g, n, rfl, hg, hn⟩ := h.outbound s.other q hq
  rw [Side.other_other] at hg hn ⊢
  cases n with
  | zero => exact .inl (by rw [hg, Nat.add_zero])
  | succ n =>
    rw [replacements, List.range'_succ, List.map_cons] at hn
    exact .inr ⟨_, _, List.mem_of_mem_filter (hn ▸ List.mem_cons_self)⟩

/-- **A reader that does not look while there is something to read is told to, or its peer is told
of a new queue.** -/
theorem Sound.wakes (h : Sound x) (hr : (x.pipe s).state.isReadable = true)
    (hi : (x.pipe s).inActive = false) (hq : (x.pipe s.other).outbound = some q)
    (hv : (x.view q).visible ≠ []) :
    .activateRead ∈ x.due s ∨ ∃ w r, .hiccup w r ∈ x.due s.other := by
  rcases h.wired.fed_newest hq with rfl | hh
  · have hl := h.lanes s.other
    rw [lane_other] at hl
    rcases hl.awake hr hi with ha | ha
    · exact absurd (hl.parked _ ha) hv
    · exact .inl ha
  · exact .inr hh

/-- Once neither is underway, the reader looks, and at the queue that is fed. -/
theorem Sound.mayRead (h : Sound x) (hr : (x.pipe s).state.isReadable = true)
    (hq : (x.pipe s.other).outbound = some q) (hv : (x.view q).visible ≠ [])
    (ha : .activateRead ∉ x.due s) (hh : ∀ w r, .hiccup w r ∉ x.due s.other) :
    (x.pipe s).mayRead = true ∧ (x.pipe s).inbound = some q := by
  constructor
  · by_contra hm
    have hi : (x.pipe s).inActive = false := by simpa [Pipe.mayRead, hr] using hm
    rcases h.wakes hr hi hq hv with hw | ⟨w, r, hw⟩
    · exact ha hw
    · exact hh w r hw
  · rcases h.wired.fed_newest hq with rfl | ⟨w, r, hw⟩
    · exact h.inbound_of_readable hr
    · exact absurd hw (hh w r)

/-- Nothing was published behind a delimiter. -/
theorem Sound.eq_nil_of_delimiter (h : Sound x) (hr : (x.pipe s).state.isReadable = true)
    (hq : (x.pipe s.other).outbound = some q) {f : Frame} {fs : List Frame}
    (hv : (x.view q).visible = f :: fs) (hf : f.isDelimiter = true) : fs = [] := by
  have hl := h.lanes s.other
  rw [lane_other] at hl
  obtain ⟨g, n, rfl, -⟩ := h.wired.outbound s.other q hq
  rw [Side.other_other] at hv
  have hflow := hl.flows g (by dsimp only; rw [hq]; rfl)
  have hmem : f ∈ (x.view (.inbound s.id g)).all := by
    rw [Segments.all, hv]
    simp
  obtain ⟨-, hst | hst⟩ := (h.agrees.meet s).of_readable hr
  · rw [hflow.streaming hst f hmem] at hf
    cases hf
  · obtain ⟨fs', hv', hd, -⟩ := hflow.ended hr hst
    cases fs' with
    | nil => exact (List.cons.inj (hv.symm.trans hv')).2
    | cons f' fs' =>
      rw [(List.cons.inj (hv.symm.trans hv')).1, hd f' List.mem_cons_self] at hf
      cases hf

end Pair

namespace Link

variable {config : Config} {a b : Plan} {tr : Trace} {l : Link} {s : Side} {q : QueueId}

/-- Side `s` reads, its peer feeds the queue `q`, and no command is underway that says where or
whether to look. -/
structure Settled (l : Link) (s : Side) (q : QueueId) : Prop where
  readable : (l.side s).pipe.state.isReadable = true
  fed : (l.side s.other).pipe.outbound = some q
  told : .activateRead ∉ l.commands s
  current : ∀ w r, .hiccup w r ∉ l.commands s.other

theorem Settled.mayRead (hs : Settled l s q) (h : OpenRun config a b tr l)
    (hv : (l.view q).visible ≠ []) :
    (l.side s).pipe.mayRead = true ∧ (l.side s).pipe.inbound = some q := by
  obtain ⟨x, hf, hx⟩ := h.exists_sound
  have := hx.mayRead (s := s) (q := q)
  rw [hf.pipe, hf.pipe, hf.view, hf.due _ (h.receiving _), hf.due _ (h.receiving _)] at this
  exact this hs.readable hs.fed hv hs.told hs.current

/-- A read takes the frame at the head; behind a delimiter nothing was published. -/
theorem Settled.step_read (hs : Settled l s q) (h : OpenRun config a b tr l) {f : Frame}
    {fs : List Frame} (hv : (l.view q).visible = f :: fs) :
    (l.step (.call s .read)).1.result = .ok f.answer ∧
      ((l.step (.call s .read)).2.view q).visible = fs ∧
      (fs = [] ∨ Settled (l.step (.call s .read)).2 s q) := by
  obtain ⟨hm, hi⟩ := hs.mayRead h (by rw [hv]; exact List.cons_ne_nil f fs)
  obtain ⟨r, ht⟩ := l.took_call s .read
  obtain ⟨hres, hvis, hnext⟩ := ht.reacts.read_head hm hi hv
  refine ⟨ht.result.trans hres, by rw [ht.view, hvis], ?_⟩
  rcases hnext with hd | ⟨hst, hp⟩
  · obtain ⟨x, hf, hx⟩ := h.exists_sound
    exact .inl (hx.eq_nil_of_delimiter (by rw [hf.pipe]; exact hs.readable)
      (by rw [hf.pipe]; exact hs.fed) (by rw [hf.view]; exact hv) hd)
  · right
    constructor
    · rw [ht.own, hst]
      exact hs.readable
    · rw [ht.peer]
      exact hs.fed
    · rw [← show l.commands s = (l.step (.call s .read)).2.commands s from ht.inbox]
      exact hs.told
    · intro w r' hw
      rw [ht.outbox, if_pos (h.receiving _), List.mem_append] at hw
      rcases hw with hw | hw
      · exact hs.current w r' hw
      · have : CommandOf.hiccup w r' ∈ r.posted.filter CommandOf.isHiccup :=
          List.mem_filter.2 ⟨hw, rfl⟩
        rw [hp] at this
        cases this

/-- Reading on gives everything that was published. -/
theorem Settled.run_read (hs : Settled l s q) (h : OpenRun config a b tr l) {fs : List Frame}
    (hv : (l.view q).visible = fs) :
    (l.run (List.replicate fs.length (.call s .read))).1.map Report.result =
        fs.map (fun f => .ok f.answer) ∧
      ((l.run (List.replicate fs.length (.call s .read))).2.view q).visible = [] := by
  induction fs generalizing tr l with
  | nil => exact ⟨rfl, hv⟩
  | cons f fs ih =>
    obtain ⟨hres, hvis, hnext⟩ := hs.step_read h hv
    rw [List.length_cons, List.replicate_succ, run_cons, List.map_cons, List.map_cons, hres]
    rcases hnext with rfl | hs'
    · exact ⟨rfl, hvis⟩
    · obtain ⟨hr, he⟩ := ih hs' (h.step rfl) hvis
      exact ⟨by rw [hr], he⟩

/-- **No wake-up is lost.** A reader that does not look while the queue its peer feeds has something
to read is told to look, or its peer is told of a new queue. Once neither is underway, reading gives
every frame that was published, and asking tells whether there is one. -/
theorem wake_up (h : OpenRun config a b tr l) (hr : (l.side s).pipe.state.isReadable = true)
    (hq : (l.side s.other).pipe.outbound = some q) :
    ((l.side s).pipe.inActive = false → (l.view q).visible ≠ [] →
        .activateRead ∈ l.commands s ∨ ∃ w r, .hiccup w r ∈ l.commands s.other) ∧
      (.activateRead ∉ l.commands s → (∀ w r, .hiccup w r ∉ l.commands s.other) →
        ((l.run (List.replicate (l.view q).visible.length (.call s .read))).1.map Report.result =
            (l.view q).visible.map (fun f => .ok f.answer) ∧
          ((l.run (List.replicate (l.view q).visible.length (.call s .read))).2.view q).visible =
            []) ∧
        ∀ f fs, (l.view q).visible = f :: fs →
          (l.step (.call s .checkRead)).1.result = .ok (.flag (!f.isDelimiter)) ∧
          ((l.step (.call s .checkRead)).2.view q).visible =
            if f.isDelimiter then fs else f :: fs) := by
  refine ⟨fun hi hv => ?_, fun ha hh => ⟨?_, fun f fs hv => ?_⟩⟩
  · obtain ⟨x, hf, hx⟩ := h.exists_sound
    have := hx.wakes (s := s) (q := q)
    rw [hf.pipe, hf.pipe, hf.view, hf.due _ (h.receiving _), hf.due _ (h.receiving _)] at this
    exact this hr hi hq hv
  · exact Settled.run_read ⟨hr, hq, ha, hh⟩ h rfl
  · obtain ⟨hm, hi⟩ := Settled.mayRead ⟨hr, hq, ha, hh⟩ h (by rw [hv]; exact List.cons_ne_nil f fs)
    obtain ⟨r, ht⟩ := l.took_call s .checkRead
    obtain ⟨hres, hvis, -⟩ := ht.reacts.checkRead_head hm hi hv
    exact ⟨ht.result.trans hres, by rw [ht.view, hvis]⟩

/-- A reader that ran dry is told of the next message, and reads it once the command is taken. -/
theorem wake_up_of_parked :
    (∃ (tr : Trace) (l : Link), OpenRun {} { options := {} } { options := {} } tr l ∧
      (l.side .b).pipe.inActive = false ∧
      (l.view (.inbound ⟨2⟩ 0)).visible = [.ofBytes ⟨#[1]⟩] ∧
      (.activateRead ∈ l.commands .b ∨ ∃ w r, .hiccup w r ∈ l.commands .a)) ∧
    ∃ (tr : Trace) (l : Link), OpenRun {} { options := {} } { options := {} } tr l ∧
      (l.view (.inbound ⟨2⟩ 0)).visible = [.ofBytes ⟨#[1]⟩] ∧
      (l.run [.call .b .read]).1.map Report.result = [.ok (.frame (.ofBytes ⟨#[1]⟩))] := by
  have h : OpenRun {} { options := {} } { options := {} } _ _ := run_of_steps rfl
    [.call .b .read, .call .a (.write (.ofBytes ⟨#[1]⟩)), .call .a .flush]
    ⟨rfl, rfl, rfl, trivial⟩
  have h' := h.append [.deliver .b] ⟨rfl, trivial⟩
  have hw := (wake_up h (s := .b) (q := .inbound ⟨2⟩ 0) (by decide) (by decide)).1
    (by decide) (by decide)
  have hr := ((wake_up h' (s := .b) (q := .inbound ⟨2⟩ 0) (by decide) (by decide)).2
    (by decide) fun w r => List.not_mem_nil).1.1
  exact ⟨⟨_, _, h, by decide, by decide, hw⟩, _, _, h', by decide, hr⟩

end Link

end MessagePipe
