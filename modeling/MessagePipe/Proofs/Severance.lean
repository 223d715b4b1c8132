import MessagePipe.Proofs.MidMessage

/-!
# Replacing a queue, and who still has the frames

An end that replaces its inbound queue hands the old one to its peer, which is to move what is left
there to the new one, so that no message is lost (`hiccup`, §4.3 of the specification). As long as
the peer's owner takes commands, the notice holds the frames in the meantime. Where it does not, the
notice is lost with both queue ends: the frames are gone, and so is the direction, for the peer goes
on feeding a queue that nobody reads. The program logs a warning in this case and goes on (§7: a
lost command is treated as never delivered).

* `Link.retained`: the frames that were published and that a side may still obtain: those in a queue
  it gave up whose notice the peer has not taken, and those in the queue it reads.
* `Run.took_hiccup`: what replacing the inbound queue comes to, wherever a run came to in operation.
* `Run.retained_of_open`: a notice that arrives takes all frames along.
* `Link.Severed`: the peer takes no more commands and feeds a queue the side gave up. Every step
  keeps a pair so (`Severed.step`), and nothing is read on that side any more (`Severed.run`).
* `Link.hiccup_retains`: what becomes of the frames, whether the notice arrives or is lost.
* `Link.hiccup_loses`: a message is published, the owner of the writer stops taking commands, and
  the reader replaces its queue.

Premise: the end is in operation; elsewhere `hiccup` does nothing. The mailboxes may be open or not.

Out of scope: the other direction, which goes on as it was.
-/

namespace MessagePipe

open Function (update)

/-- The published frames in a queue that a command hands over. -/
def Command.retired (v : View) : Command → List Frame
  | .hiccup _ retired => (v retired).visible
  | _ => []

theorem mem_replacements {id : PipeId} {g n : Nat} {w r : QueueId}
    (h : .hiccup w r ∈ replacements id g n) : ∃ i, i < g + n ∧ r = .inbound id i := by
  obtain ⟨i, hi, he⟩ := List.mem_map.1 h
  obtain ⟨-, rfl⟩ := CommandOf.hiccup.inj he
  exact ⟨i, (List.mem_range'_1.1 hi).2, rfl⟩

/-- No notice underway is about the queue that comes next. -/
theorem Pair.Sound.retired_ne_fresh {x : Pair} {s : Side} (h : Pair.Sound x)
    (hr : (x.pipe s).state.isReadable = true) {w r : QueueId}
    (hm : .hiccup w r ∈ x.due s.other) : r ≠ .inbound s.id ((x.pipe s).generation + 1) := by
  obtain ⟨g, -, ho⟩ := h.fed_of_readable hr
  obtain ⟨g', n, -, hg, hf⟩ := h.wired.outbound s.other _ ho
  rw [Side.other_other] at hg hf
  have hm' : .hiccup w r ∈ (x.due s.other).filter CommandOf.isHiccup := List.mem_filter.2 ⟨hm, rfl⟩
  rw [hf] at hm'
  obtain ⟨i, hi, rfl⟩ := mem_replacements hm'
  intro he
  have := (QueueId.inbound.inj he).2
  omega

/-- What an end in operation does to replace its inbound queue. -/
theorem Reacts.eq_of_replace {p : Pipe} {v : View} {r : Reaction} {q : QueueId}
    (h : Reacts p v (.call .hiccup) r) (hs : p.state = .active) (hi : p.inbound = some q) :
    r = { pipe := { p with
            inbound := some (.inbound p.id (p.generation + 1))
            generation := p.generation + 1
            inActive := true }
          view := update v (.inbound p.id (p.generation + 1)) {}
          posted := [.hiccup (.inbound p.id (p.generation + 1)) q] } :=
  h.unique (.hiccup hs hi)

namespace Link

variable {config : Config} {a b : Plan} {may : Link → Step → Prop} {tr : Trace} {l : Link}
  {s : Side}

/-- The published frames that side `s` may still obtain: those in a queue it gave up whose notice
the peer has not taken, and those in the queue it reads. -/
def retained (l : Link) (s : Side) : List Frame :=
  (l.commands s.other).flatMap (Command.retired l.view) ++
    (l.side s).pipe.inbound.elim [] fun q => (l.view q).visible

/-! ## Directions that are severed -/

/-- The peer of side `s` takes no more commands, and feeds none of the queues the side reads or
will read. -/
structure Severed (l : Link) (s : Side) : Prop where
  closed : (l.side s.other).inbox.receiving = false
  behind : ∀ g, (l.side s.other).pipe.outbound = some (.inbound s.id g) →
    g < (l.side s).pipe.generation

/-- A mailbox that was closed stays so. -/
theorem closed_step (h : (l.side s).inbox.receiving = false) (step : Step) :
    ((l.step step).2.side s).inbox.receiving = false := by
  cases hk : step.keepsOpen with
  | true => rw [receiving_step hk, h]
  | false =>
    obtain ⟨s', rfl⟩ : ∃ s', step = .closeInbox s' := by
      cases step with
      | closeInbox s' => exact ⟨s', rfl⟩
      | _ => cases hk
    rcases s'.eq_or_eq_other s with rfl | rfl
    · cases s <;> rfl
    · rw [show (l.step (.closeInbox s')).2 = l.closeInbox s' from rfl, closeInbox, side_put_other, h]

/-- **Nothing mends a direction that is severed.** -/
theorem Severed.step (h : Severed l s) (hr : Run config a b may tr l) (step : Step) :
    Severed (l.step step).2 s := by
  refine ⟨closed_step h.closed step, ?_⟩
  obtain ⟨x, hf, hx⟩ := hr.exists_sound
  rcases l.step_cases step with ⟨s', st, r, -, ht⟩ | ⟨-, hk, -⟩
  · intro g hg
    rcases s'.eq_or_eq_other s with rfl | rfl
    · rw [ht.peer] at hg
      rw [ht.own]
      have := h.behind g hg
      rcases ht.reacts.inbound_cases with ⟨-, he, -⟩ | ⟨-, -, -, he, -⟩ <;> omega
    · have hb := h.behind g
      have hc := h.closed
      rw [Side.other_other] at hg hb hc
      rw [ht.own] at hg
      rw [ht.peer]
      rcases ht.reacts.outbound_cases with ho | ⟨ho, -⟩ | ⟨w, q, old, rfl, -, -⟩
      · cases ho.symm.trans hg
      · exact hb (ho.symm.trans hg)
      · -- A mailbox that was closed holds no notice.
        cases ht.inbox.symm.trans (hf.lost _ hc)
  · obtain ⟨k, i, hp, -⟩ := hk.pipe s
    obtain ⟨k', i', hp', -⟩ := hk.pipe s.other
    rw [hp, hp']
    exact h.behind

/-- A frame that was obtained came in answer to a read. -/
theorem Step.eq_read_of_received {step : Step} {rep : Report} {f : Frame}
    (h : f ∈ Step.received s (step, rep)) :
    step = .call s .read ∧ rep.result = .ok (.frame f) := by
  cases step with
  | call s' c =>
    rw [Step.received] at h
    split at h
    · next hs =>
      subst hs
      unfold Call.obtained at h
      split at h
      · next hr => exact ⟨rfl, by rw [hr, List.mem_singleton.1 h]⟩
      · cases h
    · cases h
  | _ => cases h

/-- **Nothing is read where a direction is severed.** -/
theorem Severed.run (h : Severed l s) (hr : Run config a b (fun _ _ => True) tr l)
    (steps : List Step) : Trace.received s (steps.zip (l.run steps).1) = [] := by
  induction steps generalizing tr l with
  | nil => rfl
  | cons step steps ih =>
    have hnext := h.step hr step
    have hfirst : Step.received s (step, (l.step step).1) = [] := by
      refine List.eq_nil_iff_forall_not_mem.2 fun f hf => ?_
      obtain ⟨rfl, hres⟩ := Step.eq_read_of_received hf
      exact Nat.lt_irrefl _ (hnext.behind _ (hr.attends_of_read hres).fed)
    rw [run_cons, List.zip_cons_cons, Trace.received_cons, hfirst, ih hnext (hr.step trivial),
      List.append_nil]

/-! ## What becomes of the frames -/

/-- What replacing the inbound queue comes to, wherever a run came to in operation. -/
theorem Run.took_hiccup (h : Run config a b may tr l) (hs : (l.side s).pipe.state = .active) :
    Took l s (.call .hiccup)
      { pipe := { (l.side s).pipe with
          inbound := some (.inbound s.id ((l.side s).pipe.generation + 1))
          generation := (l.side s).pipe.generation + 1
          inActive := true }
        view := update l.view (.inbound s.id ((l.side s).pipe.generation + 1)) {}
        posted := [.hiccup (.inbound s.id ((l.side s).pipe.generation + 1))
          (.inbound s.id (l.side s).pipe.generation)] }
      (l.step (.call s .hiccup)).1 (l.step (.call s .hiccup)).2 := by
  obtain ⟨x, hf, hx⟩ := h.exists_sound
  have hi := hx.inbound_of_readable (s := s) (by rw [hf.pipe, hs]; rfl)
  have hid := hx.wired.id s
  rw [hf.pipe] at hi hid
  rw [← hid] at hi ⊢
  obtain ⟨r, ht⟩ := l.took_call s .hiccup
  obtain rfl := ht.reacts.eq_of_replace hs hi
  exact ht

/-- A notice that arrives takes all frames along. -/
theorem Run.retained_of_open (h : Run config a b may tr l)
    (hs : (l.side s).pipe.state = .active) (ho : (l.side s.other).inbox.receiving = true) :
    (l.step (.call s .hiccup)).2.retained s = l.retained s := by
  obtain ⟨x, hf, hx⟩ := h.exists_sound
  have hread : (x.pipe s).state.isReadable = true := by rw [hf.pipe, hs]; rfl
  have hi := hx.inbound_of_readable hread
  rw [hf.pipe] at hi
  have ht := h.took_hiccup hs
  have hcommands := ht.outbox
  rw [if_pos ho] at hcommands
  have hpipe := ht.own
  -- The fresh queue is empty, and no other changes.
  have hview : _ = update l.view (.inbound s.id ((l.side s).pipe.generation + 1)) {} := ht.view
  generalize (l.step (.call s .hiccup)).2 = l' at hcommands hpipe hview ⊢
  have hkept : ∀ {q : QueueId}, q ≠ .inbound s.id ((l.side s).pipe.generation + 1) →
      l'.view q = l.view q := fun hq => by rw [hview, Function.update_of_ne hq]
  have hblank : (l'.view (.inbound s.id ((l.side s).pipe.generation + 1))).visible = [] := by
    rw [hview, Function.update_self]
  have hold := hkept (q := .inbound s.id (l.side s).pipe.generation) fun he =>
    Nat.succ_ne_self _ (QueueId.inbound.inj he).2.symm
  have hnotices : (l.commands s.other).flatMap (Command.retired l'.view) =
      (l.commands s.other).flatMap (Command.retired l.view) := by
    refine List.flatMap_congr fun c hc => ?_
    cases c with
    | hiccup w q =>
      rw [← hf.due _ ho] at hc
      have hne := hx.retired_ne_fresh hread hc
      rw [hf.pipe] at hne
      exact congrArg Segments.visible (hkept hne)
    | _ => rfl
  simp [retained, hcommands, hnotices, hpipe, hi, hold, hblank, Command.retired]

/-- A notice that is lost severs the direction. -/
theorem Run.severed_of_closed (h : Run config a b may tr l)
    (hs : (l.side s).pipe.state = .active) (hc : (l.side s.other).inbox.receiving = false) :
    Severed (l.step (.call s .hiccup)).2 s := by
  obtain ⟨x, hf, hx⟩ := h.exists_sound
  have ht := h.took_hiccup hs
  refine ⟨closed_step hc _, fun g hg => ?_⟩
  rw [ht.peer, ← hf.pipe] at hg
  obtain ⟨g', n, he, hgen, -⟩ := hx.wired.outbound s.other _ hg
  rw [Side.other_other] at he hgen
  obtain rfl := (QueueId.inbound.inj he).2
  rw [ht.own, ← hf.pipe]
  dsimp only
  omega

/-- **An end that replaces its inbound queue keeps its frames if the notice arrives, and loses them
if it does not.** To a mailbox that is open, the notice goes with all that is left to read, in
order. Past a mailbox that was closed, nothing is left that could be read, and whatever is done
from then on, the end reads nothing any more. -/
theorem hiccup_retains (h : Run config a b may tr l) (s : Side)
    (hs : (l.side s).pipe.state = .active) :
    let l' := (l.step (.call s .hiccup)).2
    ((l.side s.other).inbox.receiving = true → l'.retained s = l.retained s) ∧
    ((l.side s.other).inbox.receiving = false →
      l'.retained s = [] ∧
        ∀ steps : List Step, Trace.received s (steps.zip (l'.run steps).1) = []) := by
  intro l'
  refine ⟨h.retained_of_open hs, fun hc => ⟨?_, ?_⟩⟩
  · obtain ⟨x, hf, -⟩ := h.exists_sound
    have ht := h.took_hiccup hs
    have hcommands : l'.commands s.other = [] := by
      rw [ht.outbox, hf.lost _ hc, hc]
      rfl
    have hpipe : (l'.side s).pipe = _ := ht.own
    have hview : l'.view = _ := ht.view
    simp [retained, hcommands, hpipe, hview]
  · exact (h.severed_of_closed hs hc).run (h.trivially.step trivial)

/-- A message is published; the notice arrives at an owner that still takes commands, and not at
one that does not. -/
theorem hiccup_retains_unless_closed :
    ∃ (tr : Trace) (l : Link),
      Run {} { options := {} } { options := {} } (fun _ _ => True) tr l ∧
      l.retained .b = [.ofBytes ⟨#[1]⟩] ∧
      (l.step (.call .b .hiccup)).2.retained .b = l.retained .b ∧
      ((l.closeInbox .a).step (.call .b .hiccup)).2.retained .b = [] := by
  have h : Run {} { options := {} } { options := {} } (fun _ _ => True) _ _ := run_of_steps rfl
    [.call .a (.write (.ofBytes ⟨#[1]⟩)), .call .a .flush] ⟨trivial, trivial, trivial⟩
  have h' := h.step (s := .closeInbox .a) trivial
  exact ⟨_, _, h, by decide, (hiccup_retains h .b (by decide)).1 (by decide),
    ((hiccup_retains h' .b (by decide)).2 (by decide)).1⟩

/-- **A notice that is lost takes frames with it.** A message is published, the owner of the writer
stops taking commands, and the reader replaces its queue. -/
theorem hiccup_loses :
    ¬ ∀ (config : Config) (a b : Plan) (tr : Trace) (l : Link) (s : Side) (q : QueueId) (f : Frame),
      Run config a b (fun _ _ => True) tr l → (l.side s).pipe.state = .active →
      (l.side s).pipe.inbound = some q → f ∈ (l.view q).visible →
      f ∈ (l.step (.call s .hiccup)).2.retained s := by
  intro hall
  have h : Run {} { options := {} } { options := {} } (fun _ _ => True) _ _ := run_of_steps rfl
    [.call .a (.write (.ofBytes ⟨#[1]⟩)), .call .a .flush, .closeInbox .a]
    ⟨trivial, trivial, trivial, trivial⟩
  have hf := hall _ _ _ _ _ .b (.inbound ⟨2⟩ 0) (.ofBytes ⟨#[1]⟩) h (by decide) (by decide)
    (by decide)
  exact absurd hf (by decide)

end Link

end MessagePipe
