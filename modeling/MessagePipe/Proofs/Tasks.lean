import MessagePipe.Proofs.Scene

/-!
# A task takes commands until there are none

Both tasks of a transfer go through one loop: take a command, pass it to the pipe, hear the events,
and work (`Behaviour.listen`; the wakers and channels of the program are a mailbox that is looked
into again). What a task does with one command decides what it does with all of them:
`Behaviour.Serves` is about one command, `Serves.listen` about a whole turn of the task.

* `Scene.exists_take`: the scene a command leads to, and how a task goes on from there: it ends if
  its pipe was taken down, and otherwise works.
* `Behaviour.Serves`: with a predicate that says in what phase what holds of a task's account and
  the pair, a task that starts or takes a command works and waits again, or ends with the end of its
  pipe. `Proofs/Writing` and `Proofs/Reading` show it of the two tasks.
* `Behaviour.Stands`: how a task stands in a scene: it is awake to its mailbox until it has ended,
  and its peer's mailbox ends then. `Stands.of_turned` says that what its peer does leaves that so.
* `Serves.listen`: a task that serves takes all commands, and waits for more or has ended then. It
  is by induction on the commands that arrived; the number of looks it is given is greater than that
  (`Behaviour.length_lt_patience`, in `Proofs/Driving`).
* `Serves.poll`: so a poll ends with the task at rest (`Behaviour.IsAtRest`).

A task that serves never finds its mailbox at its end, so no entry says that it was cut off
(`Turned.torn`).

Out of scope: in which order tasks are polled (`Proofs/Completion`), and how often
(`Proofs/Rounds`).
-/

namespace MessagePipe

namespace Link

variable {l : Link} {s : Side} {c : Command} {left : List Command}

theorem handles_receive (l : Link) (s s' : Side) :
    ((l.receive s).2.side s').inbox.handles = (l.side s').inbox.handles := by
  have hm : (l.side s).inbox.receive.2.handles = (l.side s).inbox.handles := by
    unfold Mailbox.receive
    split <;> rfl
  rcases s.eq_or_eq_other s' with rfl | rfl
  · rw [receive, side_put_self]
    exact hm
  · rw [receive, side_put_other]

/-- An empty mailbox whose handle is held holds nothing yet. -/
theorem receive_of_held (h : l.commands s = []) (hh : l.isHeld s = true) :
    l.receive s = (.nothingYet, l) := by
  have hn : (l.side s).inbox.queued.pop? = none := by
    have ht := (l.side s).inbox.queued.toList_pop?
    rw [List.map_eq_nil_iff.1 h] at ht
    simpa using ht
  have hh : (l.side s).inbox.handles.any id = true := hh
  unfold receive Mailbox.receive
  rw [hn]
  dsimp only
  rw [hh, put_side]
  rfl

end Link

namespace Transfer.Behaviour

variable {σ : Type} (β : Behaviour σ)

theorem torn_told {l : Link} (h : (β.told l).Torn) : l.Torn := by
  obtain ⟨role, hm⟩ := h
  unfold told at hm
  rw [Link.log_foldl_note, List.mem_append] at hm
  rcases hm with hm | hm
  · refine ⟨role, ?_⟩
    cases hs : β.side <;> rw [hs] at hm <;> exact hm
  · obtain ⟨e, -, he⟩ := List.mem_map.1 hm
    cases he

end Transfer.Behaviour

/-- **The scene a command leads to,** and how a task goes on from there. -/
theorem Scene.exists_take {σ : Type} (β : Transfer.Behaviour σ) (y : Scene) {c : Command}
    {left : List Command} (hc : y.link.commands β.side = c :: left) :
    ∃ r z, y.Takes β.side (.command c) r z ∧
      (.terminated ∈ r.events → ∀ n stats, β.listen (n + 1) stats y.link =
        β.finish .finished (r.events.foldl β.hear stats) z.link) ∧
      (.terminated ∉ r.events → ∀ n stats stats' l,
        β.work (r.events.foldl β.hear stats) z.link = (.ok stats', l) →
          β.listen (n + 1) stats y.link = β.listen n stats' l) := by
  obtain ⟨r, ht⟩ := Link.took_deliver hc
  obtain ⟨⟨e, he, hec⟩, hstep⟩ := Link.step_deliver_cons hc
  have hevents : ((y.link.step (.deliver β.side)).2.side β.side).events = r.events := by
    rw [ht.heard .channel (ht.reacts.sink.trans (y.sink _)) (y.listening _), y.quiet]
    exact List.filter_eq_self.2 fun _ _ => rfl
  have hquiet : ∀ s', ((β.told (y.link.step (.deliver β.side)).2).side s').events = [] :=
    fun s' => by
      rw [β.side_told]
      rcases β.side.eq_or_eq_other s' with rfl | rfl
      · rw [if_pos rfl]
      · rw [if_neg β.side.other_ne, ht.unheard, y.quiet]
  obtain ⟨z, hz, hl⟩ := y.exists_of_took (.command _ c) ht (.inr ⟨rfl, c, rfl⟩)
    (fun s' => by rw [hstep]; exact (Link.handles_settle ..).trans (Link.handles_receive ..))
    (β.alike_told _) hquiet fun htorn => by
      rw [hstep] at htorn
      have := Link.torn_of_tasked (Link.tasked_process ..) (β.torn_told htorn)
      revert this
      unfold Link.receive
      cases β.side <;> exact fun h => h
  obtain ⟨left', hd, -⟩ := hz.pair
  obtain ⟨reply, hok⟩ := y.oneWay.sound.result_ok hd hz.reacts (by rintro f ⟨⟩)
  have hresult : (y.link.step (.deliver β.side)).1.result = .ok reply := ht.result.trans hok
  refine ⟨r, z, hz, fun hterm n stats => ?_, fun hterm n stats stats' l hwork => ?_⟩
  · rw [β.listen_cons hc, hresult, hl]
    dsimp only
    rw [Transfer.Behaviour.goOn, hevents, if_pos hterm]
  · rw [hl] at hwork
    rw [β.listen_cons hc, hresult]
    dsimp only
    rw [Transfer.Behaviour.goOn, hevents, if_neg hterm, hwork]

namespace Scene

variable {s : Side} {y z u : Scene}

/-- What a task of side `s` makes of a scene by the time it has to wait: what it spares, unless it
has left by then. -/
inductive Turned (s : Side) (y : Scene) : Scene → Prop where
  | stays {z : Scene} (h : Spares s y z) : Turned s y z
  | leaves {u z : Scene} (h : Spares s y u) (hc : (u.pair.pipe s).isClosed = true)
      (hl : Leaves s u z) : Turned s y z

theorem Spares.trans_turned (h : Spares s y u) (hz : Turned s u z) : Turned s y z := by
  cases hz with
  | stays h' => exact .stays (h.trans h')
  | leaves h' hc hl => exact .leaves (h.trans h') hc hl

/-- To leave changes no pair. -/
theorem Turned.exists_spares (h : Turned s y z) : ∃ u, Spares s y u ∧ z.pair = u.pair := by
  cases h with
  | stays h => exact ⟨z, h, rfl⟩
  | leaves h hc hl => exact ⟨_, h, hl.pair⟩

theorem Turned.torn (h : Turned s y z) (ht : z.link.Torn) : y.link.Torn := by
  cases h with
  | stays h => exact h.torn ht
  | leaves h hc hl => exact h.torn (hl.torn ht)

/-- What a task does leaves its peer awake. -/
theorem Awake.of_turned (h : Awake s.other y) (ha : Awake s y) (hz : Turned s y z) :
    Awake s.other z := by
  have hspares : ∀ {u : Scene}, Spares s y u → Awake s.other u := by
    intro u hu
    refine ⟨(hu.receiving _).trans h.receiving, by rw [hu.pipe]; exact h.running, fun hn => ?_⟩
    have hc := h.held ((hu.held _).symm.trans hn)
    rw [Side.other_other, ha.running] at hc
    cases hc
  cases hz with
  | stays hu => exact hspares hu
  | leaves hu hc hl =>
    have hw := hspares hu
    refine ⟨hl.other.trans hw.receiving, by rw [hl.pair]; exact hw.running, fun _ => ?_⟩
    rw [hl.pair, Side.other_other]
    exact hc

end Scene

namespace Transfer

theorem Task.result_eq_some {σ : Type} {t : Task σ} {stats : σ} (h : t.result = some stats) :
    t.phase = .finished ∧ t.stats = stats := by
  unfold result at h
  split at h
  · next hp => exact ⟨hp, Option.some.inj h⟩
  · cases h

namespace Behaviour

open Scene (Works Leaves Awake Turned)

variable {σ : Type} {β : Behaviour σ} {Holds : Phase → σ → Pair → Prop}

/-- What a task does of which `Holds` says in what phase what holds of its account and the pair: at
the start it works and waits; a command ends it if it takes the pipe down, else it works and waits
again. -/
structure Serves (β : Behaviour σ) (Holds : Phase → σ → Pair → Prop) : Prop where
  starts : ∀ {stats : σ} {y : Scene}, Holds .unstarted stats y.pair →
    ∃ stats' w, β.work stats y.link = (.ok stats', Scene.link w) ∧ Works β.side y w ∧
      Holds .waiting stats' w.pair
  ends : ∀ {stats : σ} {y z : Scene} {c : Command} {r : Reaction}, Holds .waiting stats y.pair →
    y.Takes β.side (.command c) r z → .terminated ∈ r.events →
    Holds .finished (r.events.foldl β.hear stats) z.pair
  works : ∀ {stats : σ} {y z : Scene} {c : Command} {r : Reaction}, Holds .waiting stats y.pair →
    y.Takes β.side (.command c) r z → .terminated ∉ r.events →
    ∃ stats' w, β.work (r.events.foldl β.hear stats) z.link = (.ok stats', Scene.link w) ∧
      Works β.side z w ∧ Holds .waiting stats' w.pair

/-- How a task stands in a scene: its mailbox serves it until it has ended, and its peer's mailbox
ends then. -/
structure Stands (β : Behaviour σ) (Holds : Phase → σ → Pair → Prop) (t : Task σ) (y : Scene) :
    Prop where
  holds : Holds t.phase t.stats y.pair
  awake : t.phase ≠ .finished → Awake β.side y
  ended : t.phase = .finished →
    (y.pair.pipe β.side).isClosed = true ∧ y.link.isHeld β.side.other = false

/-- What a task does leaves how its peer stands, if that holds still what is to. -/
theorem Stands.of_turned {t : Task σ} {s : Side} {y z : Scene} (h : β.Stands Holds t y)
    (hs : β.side = s.other) (ha : Awake s y) (hz : Turned s y z)
    (hh : Holds t.phase t.stats z.pair) : β.Stands Holds t z := by
  constructor
  case holds => exact hh
  case awake =>
    intro hn
    have hw := h.awake hn
    rw [hs] at hw ⊢
    exact hw.of_turned ha hz
  case ended =>
    intro hn
    have he := h.ended hn
    rw [hs, Side.other_other] at he ⊢
    cases hz with
    | stays hu => exact ⟨by rw [hu.pipe]; exact he.1, (hu.held s).trans he.2⟩
    | leaves hu hc hl =>
      refine ⟨?_, hl.held.trans ((hu.held s).trans he.2)⟩
      rw [hl.pair, hu.pipe]
      exact he.1

/-- Has a task to wait, or has it ended? -/
def IsAtRest (β : Behaviour σ) (t : Task σ) (l : Link) : Prop :=
  t.phase = .waiting ∧ l.commands β.side = [] ∨ t.phase = .finished

/-- **A task that serves takes all commands,** and waits for more or has ended then. -/
theorem Serves.listen (h : Serves β Holds) {stats : σ} {y : Scene}
    (hw : Holds .waiting stats y.pair) (ha : Awake β.side y) {fuel : Nat}
    (hf : (y.link.commands β.side).length < fuel) :
    ∃ t z, β.listen fuel stats y.link = (t, Scene.link z) ∧ Turned β.side y z ∧
      β.Stands Holds t z ∧ β.IsAtRest t z.link := by
  induction fuel generalizing stats y with
  | zero => exact absurd hf (Nat.not_lt_zero _)
  | succ fuel ih =>
    cases hc : y.link.commands β.side with
    | nil =>
      refine ⟨⟨.waiting, stats⟩, y, ?_, .stays (.refl ..), ⟨hw, fun _ => ha, by rintro ⟨⟩⟩,
        .inl ⟨rfl, hc⟩⟩
      rw [Behaviour.listen, Link.receive_of_held hc (ha.isHeld hc)]
    | cons c left =>
      obtain ⟨r, z, hz, hends, hgoes⟩ := y.exists_take β hc
      have hspares := hz.spares
      have hclosed := hz.reacts.terminated_mem ha.running
      rw [← hz.own] at hclosed
      by_cases hterm : .terminated ∈ r.events
      · have hend := h.ends hw hz hterm
        obtain ⟨u, hu, hleaves⟩ := z.exists_leave β.side
        have hdown := hclosed.1 hterm
        rw [hends hterm]
        refine ⟨⟨.finished, _⟩, u, by rw [hu]; rfl, .leaves hspares hdown hleaves,
          ⟨by rw [hleaves.pair]; exact hend, fun hn => absurd rfl hn,
            fun _ => ⟨by rw [hleaves.pair]; exact hdown, hleaves.dropped⟩⟩,
          .inr rfl⟩
      · obtain ⟨stats', w, hwork, hworks, hwaits⟩ := h.works hw hz hterm
        have hrun : (w.pair.pipe β.side).isClosed = false := by
          rw [hworks.closed]
          exact Bool.eq_false_iff.2 fun hn => hterm (hclosed.2 hn)
        have hspares' := hspares.trans hworks.toSpares
        have hin : (w.link.commands β.side).length < fuel := by
          have hin := congrArg List.length hz.inbox
          rw [List.length_append, ← hworks.inbox] at hin
          exact Nat.lt_of_lt_of_le (Nat.lt_of_lt_of_eq (Nat.lt_add_of_pos_left Nat.one_pos) hin.symm)
            (Nat.le_of_lt_succ hf)
        obtain ⟨t, u, hl, hturned, hstands, hrest⟩ :=
          ih hwaits (ha.of_spares hspares' hrun) hin
        rw [hgoes hterm _ _ _ _ hwork]
        exact ⟨t, u, hl, hspares'.trans_turned hturned, hstands, hrest⟩

/-- **A task that serves goes on until it has to wait or has ended.** -/
theorem Serves.poll (h : Serves β Holds) {t : Task σ} {y : Scene} (hs : β.Stands Holds t y)
    (hp : t.phase = .unstarted ∨ t.phase = .waiting ∧ y.link.commands β.side ≠ []) :
    ∃ t' z, β.pollIfReady t y.link = (t', Scene.link z) ∧ Turned β.side y z ∧
      β.Stands Holds t' z ∧ β.IsAtRest t' z.link := by
  have hholds := hs.holds
  have hawake := hs.awake
  rw [pollIfReady, if_pos (isReady_of_commands hp)]
  unfold Behaviour.poll
  rcases hp with hp | ⟨hp, hc⟩
  · rw [hp] at hholds hawake ⊢
    have hawake := hawake (by rintro ⟨⟩)
    obtain ⟨stats, w, hwork, hworks, hwaits⟩ := h.starts hholds
    obtain ⟨t', z, hl, hturned, hstands, hrest⟩ := h.listen hwaits
      (hawake.of_spares hworks.toSpares (hworks.closed.trans hawake.running))
      (β.length_lt_patience w.link)
    refine ⟨t', z, ?_, hworks.toSpares.trans_turned hturned, hstands, hrest⟩
    dsimp only
    rw [hwork]
    exact hl
  · rw [hp] at hholds hawake ⊢
    exact h.listen hholds (hawake (by rintro ⟨⟩)) (β.length_lt_patience y.link)

end Behaviour

end Transfer

end MessagePipe
