import MessagePipe.Proofs.Driving
import MessagePipe.Proofs.Entries
import MessagePipe.Proofs.OneWay

/-!
# A pair that two tasks drive

The two tasks of a transfer (§11.5 of the specification) act on one link. A `Scene` is that link,
its sinks passing events on and all events taken, and the pair that goes along with it
(`Proofs/Pair`), which is one-way. Whatever a task does makes one scene out of another, so the
arguments about tasks are about scenes and neither about mailboxes nor about logs.

* `Scene.Takes`: a side reacts to a call or a command. `Takes.own`, `Takes.view`, `Takes.written`
  and `Takes.obtained` say what of the pair is another one by then.
* `Scene.Spares`: what a task of one side leaves alone; `Scene.Works`: what its calls leave alone
  besides, for they take no command and do not take the pipe down.
* `Scene.Awake`: a side whose pipe is not taken down takes commands, and its mailbox ends only if
  its peer's pipe is. So no mailbox ends before its pipe is taken down (`Awake.isHeld`).
* `Scene.Leaves`: a side has left, with its mailbox closed and the handle of its peer's mailbox
  given up.
* `Scene.exists_fresh`, `exists_call`, `exists_note`, `exists_leave`: the scenes that a fresh link,
  calls, entries and the end of a task lead to. A command leads to the one of `Scene.exists_take`,
  in `Proofs/Tasks`.

`Link.Torn` says that a task was cut off from its peer before its pipe was taken down, read off the
log; nothing that makes a scene makes a link torn.

Out of scope: how much is left to do. That is counted on links alone, in `Proofs/Toil` and
`Proofs/Turns`, for any calls and not only those of the two tasks.
-/

namespace MessagePipe

namespace Link

theorem handles_settle (l : Link) (s s' : Side) (t : Turn) :
    ((l.settle s t).side s').inbox.handles = (l.side s').inbox.handles := by
  have := Surroundings.handles_applyAll
    { mailbox := (l.side s.other).inbox, listening := (l.side s).listening,
      events := (l.side s).events, log := l.log } t.pipe t.effects
  rcases s.eq_or_eq_other s' with rfl | rfl
  · rw [inbox_settle_self]
  · cases s <;> exact this

/-- Does a task still hold the handle of a side's mailbox? -/
def isHeld (l : Link) (s : Side) : Bool :=
  (l.side s).inbox.handles.any id

theorem log_foldl_note (es : List Event) (f : Event → Entry) (l : Link) :
    (es.foldl (fun l e => l.note (f e)) l).log.toList = l.log.toList ++ es.map f := by
  induction es generalizing l with
  | nil => exact (List.append_nil _).symm
  | cons e es ih =>
    rw [List.foldl_cons, ih, note, Chain.toList_push, List.map_cons, List.append_assoc]
    rfl

/-- Was a task cut off from its peer before its pipe was taken down? -/
def Torn (l : Link) : Prop :=
  ∃ role, .cutOff role ∈ l.log.toList

theorem torn_of_tasked {l l' : Link} (h : l'.log.tasked = l.log.tasked) (ht : l'.Torn) :
    l.Torn := by
  obtain ⟨role, hm⟩ := ht
  have : Entry.cutOff role ∈ l'.log.tasked := List.mem_filter.2 ⟨hm, rfl⟩
  rw [h] at this
  exact ⟨role, List.mem_of_mem_filter this⟩

theorem inbox_of_create {config : Config} {a b : Plan} {l : Link}
    (h : create config a b = .ok l) (s : Side) : (l.side s).inbox = .fresh := by
  obtain ⟨log, rfl⟩ := eq_of_create h
  cases s <;> rfl

theorem not_torn_of_create {config : Config} {a b : Plan} {l : Link}
    (h : create config a b = .ok l) : ¬ l.Torn := by
  rintro ⟨role, hm⟩
  unfold create at h
  split at h
  · cases h
  · cases h
    rw [Chain.toList_ofList, List.mem_singleton] at hm
    cases hm

end Link

/-- A link that two tasks drive, with the pair that goes along with it. -/
structure Scene where
  link : Link
  pair : Pair
  follows : ∃ tr, Pair.Follows tr link pair
  oneWay : pair.OneWay
  sink : ∀ s, (link.side s).pipe.sink = some .channel
  listening : ∀ s, (link.side s).listening = true
  /-- All events were taken. -/
  quiet : ∀ s, (link.side s).events = []
  /-- The peer holds the only handle. -/
  single : ∀ s, (link.side s).inbox.handles.length = 1

namespace Scene

/-- **The scene of a fresh link.** -/
theorem exists_fresh {config : Config} {a b : Options} {l : Link}
    (h : Link.create config { options := a } { options := b } = .ok l) (hb : b.delay = true) :
    ∃ y : Scene, y.link = l ∧ y.pair = Pair.start fun s => (l.side s).pipe := by
  have hr := Pair.Reached.fresh h
  have hw : (Pair.start fun s => (l.side s).pipe).OneWay := by
    constructor
    case sound => exact hr.sound
    case tallied => exact hr.tallied
    case still => exact fun s => (Link.fresh_of_create h s).generation
    case unasked => exact List.not_mem_nil
    case patient =>
      obtain ⟨log, rfl⟩ := Link.eq_of_create h
      exact hb
    case drained => exact fun _ => rfl
  obtain ⟨log, hl⟩ := Link.eq_of_create h
  refine ⟨⟨l, _, ⟨[], .start h⟩, hw, fun s => ?_, fun s => ?_, fun s => ?_, fun s => ?_⟩, rfl,
    rfl⟩ <;> rw [hl] <;> cases s <;> rfl

/-- The scene `y` goes on to `z` as side `s` reacts to `st` by `r`. -/
structure Takes (y : Scene) (s : Side) (st : Stimulus) (r : Reaction) (z : Scene) : Prop where
  reacts : Reacts (y.pair.pipe s) y.pair.view st r
  pair : ∃ left, y.pair.due s = st.taken ++ left ∧ z.pair = y.pair.after s st r left
  inbox : y.link.commands s = st.taken ++ z.link.commands s
  outbox : z.link.commands s.other = y.link.commands s.other ++
    if (y.link.side s.other).inbox.receiving then r.posted else []
  receiving : ∀ s', (z.link.side s').inbox.receiving = (y.link.side s').inbox.receiving
  held : ∀ s', z.link.isHeld s' = y.link.isHeld s'
  torn : z.link.Torn → y.link.Torn

/-- What a task of side `s` leaves alone. -/
structure Spares (s : Side) (y z : Scene) : Prop where
  pipe : z.pair.pipe s.other = y.pair.pipe s.other
  written : z.pair.written s.other = y.pair.written s.other
  obtained : z.pair.obtained s.other = y.pair.obtained s.other
  staged : ∀ q, (y.pair.pipe s.other).outbound = some q →
    (z.pair.view q).ready = (y.pair.view q).ready ∧
      (z.pair.view q).fragments = (y.pair.view q).fragments
  receiving : ∀ s', (z.link.side s').inbox.receiving = (y.link.side s').inbox.receiving
  held : ∀ s', z.link.isHeld s' = y.link.isHeld s'
  torn : z.link.Torn → y.link.Torn

variable {y z w : Scene} {s : Side} {st : Stimulus} {r : Reaction}

theorem Spares.refl (s : Side) (y : Scene) : Spares s y y :=
  ⟨rfl, rfl, rfl, fun _ _ => ⟨rfl, rfl⟩, fun _ => rfl, fun _ => rfl, fun h => h⟩

theorem Spares.trans (h : Spares s y z) (h' : Spares s z w) : Spares s y w where
  pipe := h'.pipe.trans h.pipe
  written := h'.written.trans h.written
  obtained := h'.obtained.trans h.obtained
  staged q hq := by
    obtain ⟨h1, h2⟩ := h.staged q hq
    obtain ⟨h3, h4⟩ := h'.staged q (h.pipe ▸ hq)
    exact ⟨h3.trans h1, h4.trans h2⟩
  receiving s' := (h'.receiving s').trans (h.receiving s')
  held s' := (h'.held s').trans (h.held s')
  torn ht := h.torn (h'.torn ht)

theorem pipe_eq (y : Scene) (s : Side) : (y.link.side s).pipe = y.pair.pipe s := by
  obtain ⟨tr, hf⟩ := y.follows
  exact (hf.pipe s).symm

theorem view_eq (y : Scene) : y.link.view = y.pair.view := by
  obtain ⟨tr, hf⟩ := y.follows
  exact hf.view.symm

theorem due_eq (y : Scene) (hs : (y.link.side s).inbox.receiving = true) :
    y.pair.due s = y.link.commands s := by
  obtain ⟨tr, hf⟩ := y.follows
  exact hf.due s hs

namespace Takes

theorem own (h : Takes y s st r z) : z.pair.pipe s = r.pipe := by
  obtain ⟨left, -, hz⟩ := h.pair
  rw [hz, Pair.pipe_after_self]

theorem view (h : Takes y s st r z) : z.pair.view = r.view := by
  obtain ⟨left, -, hz⟩ := h.pair
  rw [hz]
  rfl

theorem written (h : Takes y s st r z) : z.pair.written s = st.sent (y.pair.written s) r := by
  obtain ⟨left, -, hz⟩ := h.pair
  rw [hz, Pair.written_after_self]

/-- Where nothing was taken back, there is what was accepted beyond what there was. -/
theorem written_call {c : Call} (h : Takes y s (.call c) r z) (hb : r.takenBack = 0) :
    z.pair.written s = y.pair.written s ++ c.accepted r.result := by
  rw [h.written, Stimulus.sent, hb, List.rdrop_zero]

theorem obtained (h : Takes y s st r z) :
    z.pair.obtained s = y.pair.obtained s ++ st.received r := by
  obtain ⟨left, -, hz⟩ := h.pair
  rw [hz, Pair.obtained_after_self]

theorem spares (h : Takes y s st r z) : Spares s y z := by
  obtain ⟨left, hd, hz⟩ := h.pair
  refine ⟨?_, ?_, ?_, fun q hq => ?_, h.receiving, h.held, h.torn⟩
  · rw [hz, Pair.pipe_after_other]
  · rw [hz, Pair.written_after_other]
  · rw [hz, Pair.obtained_after_other]
  · rw [hz]
    exact y.oneWay.sound.staged hd h.reacts hq

end Takes

/-- What the calls of a task of side `s` make of a scene: beside what they leave alone, no command
is taken, and the pipe is not taken down. -/
structure Works (s : Side) (y z : Scene) : Prop extends Spares s y z where
  inbox : z.link.commands s = y.link.commands s
  closed : (z.pair.pipe s).isClosed = (y.pair.pipe s).isClosed

theorem Works.refl (s : Side) (y : Scene) : Works s y y :=
  ⟨.refl s y, rfl, rfl⟩

theorem Works.trans (h : Works s y z) (h' : Works s z w) : Works s y w :=
  ⟨h.toSpares.trans h'.toSpares, h'.inbox.trans h.inbox, h'.closed.trans h.closed⟩

theorem Takes.works {c : Call} (h : Takes y s (.call c) r z) : Works s y z := by
  refine ⟨h.spares, h.inbox.symm, ?_⟩
  have hc := h.reacts.terminated_count
  rw [h.reacts.events_of_call] at hc
  rw [List.count_nil, Nat.add_zero] at hc
  rw [h.own]
  cases ho : (y.pair.pipe s).isClosed with
  | true =>
    rw [ho, if_pos rfl] at hc
    exact by_contra fun hn => by rw [if_neg hn] at hc; cases hc
  | false =>
    rw [ho, if_neg Bool.false_ne_true] at hc
    exact Bool.eq_false_iff.2 fun hn => by rw [if_pos hn] at hc; cases hc

/-- A side whose pipe is not taken down takes commands, and its mailbox ends only if its peer's pipe
is. -/
structure Awake (s : Side) (y : Scene) : Prop where
  receiving : (y.link.side s).inbox.receiving = true
  running : (y.pair.pipe s).isClosed = false
  held : y.link.isHeld s = false → (y.pair.pipe s.other).isClosed = true

/-- **No mailbox ends before its pipe is taken down.** -/
theorem Awake.isHeld (h : Awake s y) (hc : y.link.commands s = []) : y.link.isHeld s = true := by
  by_contra hn
  have hclosed := h.held (by simpa using hn)
  have hdue := y.oneWay.sound.due_of_closed hclosed (by rw [Side.other_other]; exact h.running)
  rw [Side.other_other, y.due_eq h.receiving] at hdue
  exact hdue hc

theorem Awake.of_spares (h : Awake s y) (hz : Spares s y z)
    (hr : (z.pair.pipe s).isClosed = false) : Awake s z :=
  ⟨(hz.receiving s).trans h.receiving, hr,
    fun hn => by rw [hz.pipe]; exact h.held ((hz.held s).symm.trans hn)⟩

/-- Side `s` has left the scene `y`, which is `z` from then on: its mailbox takes nothing more, and
the mailbox of its peer ends after what it holds. -/
structure Leaves (s : Side) (y z : Scene) : Prop where
  pair : z.pair = y.pair
  inbox : z.link.commands s = []
  outbox : z.link.commands s.other = y.link.commands s.other
  closed : (z.link.side s).inbox.receiving = false
  other : (z.link.side s.other).inbox.receiving = (y.link.side s.other).inbox.receiving
  held : z.link.isHeld s = y.link.isHeld s
  dropped : z.link.isHeld s.other = false
  torn : z.link.Torn → y.link.Torn

/-! ## Where calls and commands lead -/

/-- A scene of which a reaction was made, and all events it gave rise to were taken. -/
theorem exists_of_took (y : Scene) {l l' : Link} {rep : Link.Report} {step : Link.Step}
    (hp : st.Plain (y.pair.pipe s) s) (ht : Link.Took y.link s st r rep l)
    (hst : (∃ c, step = .call s c ∧ st = .call c) ∨ step = .deliver s ∧ ∃ c, st = .command c)
    (hh : ∀ s', (l.side s').inbox.handles = (y.link.side s').inbox.handles)
    (ha : Link.Alike l l') (hev : ∀ s', (l'.side s').events = []) (htorn : l'.Torn → y.link.Torn) :
    ∃ z, y.Takes s st r z ∧ z.link = l' := by
  obtain ⟨tr, hf⟩ := y.follows
  obtain ⟨left, hd, hr, hf'⟩ := hf.took ht hst
  have hsink : ∀ s', (l.side s').pipe.sink = some .channel := fun s' => by
    rcases s.eq_or_eq_other s' with rfl | rfl
    · rw [ht.own, ht.reacts.sink]
      exact y.sink _
    · rw [ht.peer]
      exact y.sink _
  refine ⟨⟨l', _, ⟨_, ha.follows hf'⟩, y.oneWay.react hp hd hr, fun s' => by rw [ha.pipe, hsink],
    fun s' => ?_, hev, fun s' => by rw [ha.inbox, hh, y.single]⟩, ?_, rfl⟩
  · rw [ha.listening, ht.listening]
    exact y.listening s'
  · refine ⟨hr, ⟨left, hd, rfl⟩, ?_, ?_, fun s' => ?_, fun s' => ?_, htorn⟩
    · rw [ha.commands]
      exact ht.inbox
    · rw [ha.commands]
      exact ht.outbox
    · rw [ha.inbox]
      exact ht.receiving s'
    · rw [Link.isHeld, ha.inbox, hh]
      rfl

/-- **The scene a call leads to.** -/
theorem exists_call (y : Scene) {c : Call} (hp : (Stimulus.call c).Plain (y.pair.pipe s) s) :
    ∃ r z es, y.Takes s (.call c) r z ∧
      y.link.call s c = ({ result := r.result, effects := es }, z.link) := by
  obtain ⟨r, ht⟩ := y.link.took_call s c
  have ht : Link.Took y.link s (.call c) r (y.link.call s c).1 (y.link.call s c).2 := ht
  have hev : ∀ s', ((y.link.call s c).2.side s').events = [] := fun s' => by
    rcases s.eq_or_eq_other s' with rfl | rfl
    · rw [ht.heard .channel (ht.reacts.sink.trans (y.sink _)) (y.listening _),
        ht.reacts.events_of_call, y.quiet]
      rfl
    · rw [ht.unheard, y.quiet]
  obtain ⟨z, hz, hl⟩ := y.exists_of_took hp ht (.inl ⟨c, rfl, rfl⟩)
    (fun s' => Link.handles_settle ..) (.refl _) hev (Link.torn_of_tasked (y.link.tasked_call s c))
  refine ⟨r, z, (y.link.call s c).1.effects, hz, ?_⟩
  rw [hl, ← ht.result]

/-- An entry in the log that is none of a task cut off. -/
theorem exists_note (y : Scene) {e : Entry} (he : ∀ role, e ≠ .cutOff role) :
    ∃ z : Scene, z.link = y.link.note e ∧ z.pair = y.pair ∧ Works s y z := by
  obtain ⟨tr, hf⟩ := y.follows
  have hs := y.link.side_note e
  have ha := y.link.alike_note e
  refine ⟨⟨y.link.note e, y.pair, ⟨tr, ha.follows hf⟩, y.oneWay, fun s' => by rw [hs, y.sink],
    fun s' => by rw [hs, y.listening], fun s' => by rw [hs, y.quiet],
    fun s' => by rw [hs, y.single]⟩, rfl, rfl, ⟨?_, ha.commands s, rfl⟩⟩
  refine ⟨rfl, rfl, rfl, fun _ _ => ⟨rfl, rfl⟩, fun s' => by rw [hs],
    fun s' => by rw [Link.isHeld, hs]; rfl, ?_⟩
  rintro ⟨role, hm⟩
  have hm : .cutOff role ∈ (y.link.log.push e).toList := hm
  rw [Chain.toList_push, List.mem_append, List.mem_singleton] at hm
  exact ⟨role, hm.resolve_right fun hm => he role hm.symm⟩

/-- **The scene that a task leaves behind.** -/
theorem exists_leave (y : Scene) (s : Side) : ∃ z, z.link = y.link.leave s ∧ Leaves s y z := by
  obtain ⟨tr, hf⟩ := y.follows
  have hfollows := hf.leave s
  have hpipe := y.link.pipe_leave s
  have hself := y.link.inbox_leave_self s
  have hother := y.link.inbox_leave_other s
  have hsingle : ∀ s', ((y.link.leave s).side s').inbox.handles.length = 1 := fun s' => by
    rcases s.eq_or_eq_other s' with rfl | rfl
    · rw [hself]
      exact y.single _
    · rw [hother]
      exact (List.length_set ..).trans (y.single _)
  have hdropped : (y.link.leave s).isHeld s.other = false := by
    obtain ⟨b, hb⟩ := List.length_eq_one_iff.1 (y.single s.other)
    rw [Link.isHeld, hother, Mailbox.dropHandle, hb]
    rfl
  refine ⟨⟨y.link.leave s, y.pair, hfollows, y.oneWay, fun s' => by rw [hpipe, y.sink],
    fun s' => by rw [Link.listening_leave, y.listening],
    fun s' => by rw [Link.events_leave, y.quiet], hsingle⟩, rfl, ?_⟩
  constructor
  case pair => rfl
  case inbox =>
    rw [Link.commands, hself]
    rfl
  case outbox =>
    rw [Link.commands, hother]
    rfl
  case closed =>
    rw [hself]
    rfl
  case other =>
    rw [hother]
    rfl
  case held =>
    rw [Link.isHeld, hself]
    rfl
  case dropped => exact hdropped
  case torn =>
    intro ht
    cases s <;> exact ht

end Scene

end MessagePipe
