import MessagePipe.Proofs.Wiring

/-!
# One direction of a pair

A `Lane` is what one end feeds and the other one reads: the inbound queues the reader had so far, by
generation, which of them is fed and which is read, and what was written and read altogether. The
reader may be several queues ahead of the writer, if notices of replaced queues are underway; all
but the one that is fed are empty then.

There are no pipes and no commands in here, so each operation is a change of one queue, and what has
to be shown of it is about lists.

* `Segments.Sane`: what a queue holds is complete messages, and behind them the fragments of one
  that is open. `Segments.ended` is a queue to which a delimiter was put and published.
* `Lane.Flows`: what is written is what was read and what the fed queue holds, and an end that asked
  to terminate put a delimiter behind all of it. That is first in, first out with no loss (§8 of the
  specification).
* `Lane.Sound`: that, and a reader that does not look parked at its queue, or is told to look.
* `Sound.write`, `Sound.flush`, `Sound.rollback`, `Sound.finish`, `Sound.advance`, `Sound.release`:
  it is kept by whatever the writer does, down to moving the stream to the next queue (`Moved`) and
  giving it up;
* `Sound.take`, `Sound.dry`, `Sound.renew`, `Sound.close`: and by whatever the reader does. Behind a
  delimiter nothing is read any more.

`Proofs/Stream` has the lanes of a pair, and shows that every reaction of an end is one of these.

Out of scope: watermarks; what is counted is in `Proofs/Tally`.
-/

namespace MessagePipe

open Function (update)

/-! ## What a queue that is fed holds -/

namespace Segments

/-- The frames that are not delimiters, oldest first. -/
def data (s : Segments Frame) : List Frame :=
  s.all.filter fun f => !f.isDelimiter

/-- Complete messages, and behind them the fragments of one that is open. -/
structure Sane (s : Segments Frame) : Prop where
  whole : Whole (s.visible ++ s.ready)
  staged : ∀ f ∈ s.fragments, f.hasMore = true ∧ f.isDelimiter = false

/-- Nothing is staged behind a delimiter, which is the only one. -/
def Finished (s : Segments Frame) : Prop :=
  ∃ fs, s.visible = fs ++ [.delimiter] ∧ (∀ f ∈ fs, f.isDelimiter = false) ∧ s.ready = [] ∧
    s.fragments = []

theorem Sane.all_hasMore {s : Segments Frame} (h : s.Sane) : s.fragments.all Frame.hasMore = true :=
  List.all_eq_true.2 fun f hf => (h.staged f hf).1

theorem Sane.filter_fragments {s : Segments Frame} (h : s.Sane) :
    (s.fragments.filter fun f => !f.isDelimiter) = s.fragments :=
  List.filter_eq_self.2 fun f hf => by rw [(h.staged f hf).2]; rfl

theorem data_write (s : Segments Frame) {f : Frame} (hf : f.isDelimiter = false)
    (incomplete : Bool) : (s.write f incomplete).data = s.data ++ [f] := by
  simp [data, all_write, hf]

theorem visible_write (s : Segments Frame) (f : Frame) (incomplete : Bool) :
    (s.write f incomplete).visible = s.visible := by
  unfold write
  split <;> rfl

theorem idle_write (s : Segments Frame) (f : Frame) (incomplete : Bool) :
    (s.write f incomplete).idle = s.idle := by
  unfold write
  split <;> rfl

theorem sane_write {s : Segments Frame} (h : s.Sane) {f : Frame} (hf : f.isDelimiter = false) :
    (s.write f f.hasMore).Sane := by
  unfold write
  cases hm : f.hasMore with
  | true =>
    refine ⟨h.whole, fun g hg => ?_⟩
    rcases List.mem_append.1 hg with hg | hg
    · exact h.staged g hg
    · rw [List.mem_singleton.1 hg]
      exact ⟨hm, hf⟩
  | false =>
    refine ⟨?_, fun g hg => absurd hg List.not_mem_nil⟩
    show Whole (s.visible ++ (s.ready ++ s.fragments ++ [f]))
    rw [← List.append_assoc]
    exact whole_concat.2 hm

theorem data_flush (s : Segments Frame) : s.flush.2.data = s.data := by
  rw [data, all_flush, data]

theorem sane_flush {s : Segments Frame} (h : s.Sane) : s.flush.2.Sane := by
  refine ⟨?_, fun f hf => h.staged f (s.fragments_flush ▸ hf)⟩
  rw [visible_flush, ready_flush, List.append_nil]
  exact h.whole

/-- A reader that has parked is told of a flush, or stays parked with nothing to read. -/
theorem idle_flush {s : Segments Frame} (h : s.idle = true) :
    s.flush.2.idle = true ∨ .activateRead ∈ s.wake := by
  unfold wake flush
  split
  · exact .inl h
  · exact .inr (by simp)

theorem visible_flush_of_idle {s : Segments Frame} (hp : s.idle = true → s.visible = [])
    (h : s.flush.2.idle = true) : s.flush.2.visible = [] := by
  unfold flush at h ⊢
  split at h
  · next hr =>
    rw [if_pos hr]
    exact hp h
  · cases h

theorem flush_of_ready {s : Segments Frame} (h : s.ready = []) : s.flush = (false, s) :=
  if_pos h

/-- What a stream that was ended and published holds. -/
theorem flush_ended (s : Segments Frame) : s.ended.flush.2 =
    { visible := s.visible ++ (s.ready ++ [.delimiter]), ready := [], fragments := [],
      idle := false } := by
  simp [ended, write, flush]

/-- Taking the fragments back takes as many frames off what is written. -/
theorem Sane.rdrop_data {s : Segments Frame} (h : s.Sane) (fs : List Frame) :
    (fs ++ s.data).rdrop s.fragments.length = fs ++ ({ s with fragments := [] } :
      Segments Frame).data := by
  have hd : fs ++ s.data =
      fs ++ ({ s with fragments := [] } : Segments Frame).data ++ s.fragments := by
    simp [data, all, h.filter_fragments]
  rw [hd, List.rdrop, List.length_append, Nat.add_sub_cancel, List.take_left]

theorem data_ended (s : Segments Frame) :
    s.ended.data = ({ s with fragments := [] } : Segments Frame).data := by
  simp [data, ended, all_write]

theorem sane_ended (s : Segments Frame) : s.ended.Sane := by
  refine ⟨?_, fun f hf => absurd hf List.not_mem_nil⟩
  show Whole (s.visible ++ (s.ready ++ [] ++ [.delimiter]))
  rw [← List.append_assoc]
  exact whole_concat.2 Frame.hasMore_delimiter

theorem wake_ended (s : Segments Frame) (h : s.idle = true) : .activateRead ∈ s.ended.wake := by
  simp [ended, wake, write, flush, h]

end Segments

/-! ## Lanes -/

/-- One direction of a pair. -/
structure Lane where
  /-- The inbound queues of the reader, by generation. -/
  queue : Nat → Segments Frame
  /-- The generation that is fed, unless the writer gave its outbound queue up. -/
  fed : Option Nat
  /-- The generation that is read. -/
  current : Nat
  writer : State
  reader : State
  /-- Does the reader look for frames? -/
  looking : Bool
  /-- Is the reader told that there are frames to look for? -/
  woken : Prop
  /-- What was written and not taken back. -/
  written : List Frame
  /-- What was read. -/
  obtained : List Frame

namespace Lane

variable {l : Lane} {g : Nat}

/-- What is written is what was read and what the queue of generation `g` holds. -/
structure Flows (l : Lane) (g : Nat) : Prop where
  le : g ≤ l.current
  /-- Nothing is in the queues to come. -/
  blank : ∀ i, g < i → (l.queue i).all = []
  sane : (l.queue g).Sane
  books : l.written = l.obtained ++ (l.queue g).data
  streaming : l.writer = .active → ∀ f ∈ (l.queue g).all, f.isDelimiter = false
  ended : l.reader.isReadable = true → l.writer = .terminated → (l.queue g).Finished

/-- **The invariant of one direction.** -/
structure Sound (l : Lane) : Prop where
  flows : ∀ g, l.fed = some g → l.Flows g
  released : l.fed = none → l.obtained <+: l.written
  clean : ∀ f ∈ l.written, f.isDelimiter = false
  /-- A reader parks at a queue with nothing to read. -/
  parked : ∀ i, (l.queue i).idle = true → (l.queue i).visible = []
  /-- A reader that does not look has parked at its queue, or is told to look. -/
  awake : l.reader.isReadable = true → l.looking = false →
    (l.queue l.current).idle = true ∨ l.woken

theorem Sound.obtained_of_written (h : l.Sound) : l.obtained <+: l.written := by
  cases hf : l.fed with
  | none => exact h.released hf
  | some g => exact ⟨_, (h.flows g hf).books.symm⟩

/-- Where one queue changes, only that one is to be looked at for readers that parked. -/
theorem Sound.parked_update (h : l.Sound) {s : Segments Frame}
    (hs : s.idle = true → s.visible = []) (i : Nat) :
    (update l.queue g s i).idle = true → (update l.queue g s i).visible = [] := by
  by_cases hi : i = g
  · subst hi
    rw [Function.update_self]
    exact hs
  · rw [Function.update_of_ne hi]
    exact h.parked i

/-- A queue with something to read is the one that is fed. -/
theorem Flows.eq_current (h : l.Flows g) {f : Frame} {fs : List Frame}
    (hv : (l.queue l.current).visible = f :: fs) : g = l.current := by
  by_contra hne
  have hb := h.blank l.current (by have := h.le; omega)
  rw [Segments.all, hv] at hb
  cases hb

/-! ## The writer -/

/-- The queue that is fed may change in whatever keeps the books. -/
theorem Sound.put (h : l.Sound) (hg : l.fed = some g) {s : Segments Frame} {writer : State}
    {woken : Prop} {written : List Frame} (hs : s.Sane) (books : written = l.obtained ++ s.data)
    (clean : ∀ f ∈ written, f.isDelimiter = false)
    (parked : s.idle = true → s.visible = [])
    (awake : (l.queue g).idle = true → s.idle = true ∨ woken)
    (told : l.woken → woken)
    (streaming : writer = .active → ∀ f ∈ s.all, f.isDelimiter = false)
    (ended : l.reader.isReadable = true → writer = .terminated → s.Finished) :
    Sound { l with queue := update l.queue g s, writer, woken, written } := by
  have hf := h.flows g hg
  constructor
  case flows =>
    intro g' hg'
    obtain rfl : g = g' := Option.some.inj (hg.symm.trans hg')
    have hq : update l.queue g s g = s := Function.update_self ..
    refine ⟨hf.le, fun i hi => ?_, ?_, ?_, ?_, ?_⟩ <;> dsimp only
    · rw [Function.update_of_ne (Nat.ne_of_gt hi)]
      exact hf.blank i hi
    · rw [hq]
      exact hs
    · rw [hq]
      exact books
    · rw [hq]
      exact streaming
    · rw [hq]
      exact ended
  case released =>
    intro hn
    rw [show l.fed = none from hn] at hg
    cases hg
  case clean => exact clean
  case parked => exact h.parked_update parked
  case awake =>
    intro hr hl
    dsimp only
    have ha := h.awake hr hl
    by_cases hi : l.current = g
    · rw [hi, Function.update_self]
      rw [hi] at ha
      rcases ha with ha | ha
      · exact awake ha
      · exact .inr (told ha)
    · rw [Function.update_of_ne hi]
      exact ha.imp_right told

/-- The writer stages a frame. -/
theorem Sound.write (h : l.Sound) (hg : l.fed = some g) {f : Frame} (hf : f.isDelimiter = false)
    (ha : l.writer = .active) {woken : Prop} (told : l.woken → woken) :
    Sound { l with
      queue := update l.queue g ((l.queue g).write f f.hasMore)
      woken
      written := l.written ++ [f] } := by
  have hflow := h.flows g hg
  refine h.put hg (Segments.sane_write hflow.sane hf) ?_ (fun f' hf' => ?_) (fun hi => ?_)
    (fun hi => .inl ?_) told (fun _ f' hf' => ?_) fun _ ht => ?_
  · rw [Segments.data_write _ hf, ← List.append_assoc, hflow.books]
  · rcases List.mem_append.1 hf' with hf' | hf'
    · exact h.clean f' hf'
    · rwa [List.mem_singleton.1 hf']
  · rw [Segments.idle_write] at hi
    rw [Segments.visible_write]
    exact h.parked g hi
  · rwa [Segments.idle_write]
  · rw [Segments.all_write] at hf'
    rcases List.mem_append.1 hf' with hf' | hf'
    · exact hflow.streaming ha f' hf'
    · rwa [List.mem_singleton.1 hf']
  · rw [ht] at ha
    cases ha

/-- The writer publishes what is ready. -/
theorem Sound.flush (h : l.Sound) (hg : l.fed = some g) {woken : Prop}
    (told : l.woken → woken)
    (wakes : .activateRead ∈ (l.queue g).wake → woken) :
    Sound { l with queue := update l.queue g (l.queue g).flush.2, woken } := by
  have hflow := h.flows g hg
  refine h.put hg (Segments.sane_flush hflow.sane) ?_ h.clean
    (Segments.visible_flush_of_idle (h.parked g))
    (fun hi => (Segments.idle_flush hi).imp_right wakes) told (fun ha => ?_) fun hr ht => ?_
  · rw [Segments.data_flush, hflow.books]
  · rw [Segments.all_flush]
    exact hflow.streaming ha
  · obtain ⟨fs, hv, hd, hy, hx⟩ := hflow.ended hr ht
    rw [Segments.flush_of_ready hy]
    exact ⟨fs, hv, hd, hy, hx⟩

theorem clean_rdrop (h : l.Sound) (n : Nat) : ∀ f ∈ l.written.rdrop n, f.isDelimiter = false :=
  fun f hf => h.clean f (List.mem_of_mem_take hf)

/-- The writer takes the fragments back. -/
theorem Sound.rollback (h : l.Sound) (hg : l.fed = some g) {woken : Prop}
    (told : l.woken → woken) :
    Sound { l with
      queue := update l.queue g { l.queue g with fragments := [] }
      woken
      written := l.written.rdrop (l.queue g).fragments.length } := by
  have hflow := h.flows g hg
  refine h.put hg ⟨hflow.sane.whole, fun f hf => absurd hf List.not_mem_nil⟩ ?_ (clean_rdrop h _)
    (h.parked g) .inl told (fun ha f hf => ?_) fun hr ht => ?_
  · rw [hflow.books, hflow.sane.rdrop_data]
  · refine hflow.streaming ha f (List.mem_append_left _ ?_)
    simpa [Segments.all] using hf
  · obtain ⟨fs, hv, hd, hy, -⟩ := hflow.ended hr ht
    exact ⟨fs, hv, hd, hy, rfl⟩

/-- The writer takes the fragments back, and publishes a delimiter behind all that is complete. -/
theorem Sound.finish (h : l.Sound) (hg : l.fed = some g) {writer : State} {woken : Prop}
    (told : l.woken → woken)
    (wakes : .activateRead ∈ (l.queue g).ended.wake → woken) (hw : writer ≠ .active)
    (ht : l.reader.isReadable = true → writer = .terminated → l.writer = .active) :
    Sound { l with
      queue := update l.queue g (l.queue g).ended.flush.2
      writer
      woken
      written := l.written.rdrop (l.queue g).fragments.length } := by
  have hflow := h.flows g hg
  refine h.put hg (Segments.sane_flush (Segments.sane_ended _)) ?_ (clean_rdrop h _)
    (fun hi => ?_) (fun hi => .inr (wakes (Segments.wake_ended _ hi))) told
    (fun ha => absurd ha hw) fun hr hwt => ?_
  · rw [Segments.data_flush, Segments.data_ended, hflow.books, hflow.sane.rdrop_data]
  · rw [Segments.flush_ended] at hi
    cases hi
  · rw [Segments.flush_ended]
    refine ⟨(l.queue g).visible ++ (l.queue g).ready, (List.append_assoc ..).symm,
      fun f hf => ?_, rfl, rfl⟩
    exact hflow.streaming (ht hr hwt) f (List.mem_append_left _ hf)

/-- The queues `q'` are the queues `q` after all that the one of generation `g` held was moved to
the next one, and published there. -/
structure Moved (q q' : Nat → Segments Frame) (g : Nat) : Prop where
  others : ∀ i, i ≠ g → i ≠ g + 1 → q' i = q i
  old : (q' g).visible = []
  new : q' (g + 1) = ({ visible := [], ready := (q g).visible ++ (q g).ready,
                        fragments := (q g).fragments, idle := (q (g + 1)).idle } :
    Segments Frame).flush.2

/-- The next queue holds what the one before held, frame by frame. -/
theorem Moved.all {q q' : Nat → Segments Frame} (hm : Moved q q' g) :
    (q' (g + 1)).all = (q g).all := by
  rw [hm.new, Segments.all_flush]
  simp [Segments.all]

theorem Flows.advance (hf : l.Flows g) (hlt : g < l.current) {q : Nat → Segments Frame}
    (hm : Moved l.queue q g) (woken : Prop) :
    Flows { l with queue := q, fed := some (g + 1), woken } (g + 1) := by
  constructor <;> dsimp only
  case le => exact hlt
  case blank =>
    intro i hi
    rw [hm.others i (by omega) (by omega)]
    exact hf.blank i (by omega)
  case sane =>
    rw [hm.new]
    exact Segments.sane_flush ⟨hf.sane.whole, hf.sane.staged⟩
  case books => rw [hf.books, Segments.data, Segments.data, hm.all]
  case streaming =>
    rw [hm.all]
    exact hf.streaming
  case ended =>
    intro hr ht
    obtain ⟨fs, hv, hd, hy, hx⟩ := hf.ended hr ht
    refine ⟨fs, ?_, hd, ?_, ?_⟩
    · rw [hm.new, Segments.visible_flush, List.nil_append, hv, hy, List.append_nil]
    · rw [hm.new, Segments.ready_flush]
    · rw [hm.new, Segments.fragments_flush, hx]

/-- The writer goes on to the next queue, with all that the one it fed held. -/
theorem Sound.advance (h : l.Sound) (hg : l.fed = some g) (hlt : g < l.current)
    {q : Nat → Segments Frame} (hm : Moved l.queue q g) {woken : Prop}
    (awake : (l.queue (g + 1)).idle = true → (q (g + 1)).idle = true ∨ woken)
    (told : l.woken → woken) :
    Sound { l with queue := q, fed := some (g + 1), woken } := by
  constructor
  case flows =>
    intro g' hg'
    obtain rfl : g + 1 = g' := Option.some.inj hg'
    exact (h.flows g hg).advance hlt hm woken
  case released =>
    intro hn
    cases hn
  case clean => exact h.clean
  case parked =>
    intro i
    dsimp only
    by_cases hi : i = g
    · subst hi
      exact fun _ => hm.old
    by_cases hi' : i = g + 1
    · subst hi'
      rw [hm.new]
      exact Segments.visible_flush_of_idle fun _ => rfl
    · rw [hm.others i hi hi']
      exact h.parked i
  case awake =>
    intro hr hl
    dsimp only
    have ha := h.awake hr hl
    by_cases hi : l.current = g + 1
    · rw [hi] at ha ⊢
      rcases ha with ha | ha
      · exact awake ha
      · exact .inr (told ha)
    · -- A reader that is further ahead reads a queue that did not change.
      rw [hm.others l.current (by omega) hi]
      exact ha.imp_right told

/-- The writer gives its queue up. -/
theorem Sound.release (h : l.Sound) (writer : State) : Sound { l with fed := none, writer } where
  flows g hg := by cases hg
  released _ := h.obtained_of_written
  clean := h.clean
  parked := h.parked
  awake := h.awake

/-! ## The reader -/

theorem Flows.take (hf : l.Flows l.current) {f : Frame} {fs : List Frame}
    (hv : (l.queue l.current).visible = f :: fs) (reader : State)
    (hr : reader.isReadable = true → l.reader.isReadable = true ∧ f.isDelimiter = false) :
    Flows { l with
      queue := update l.queue l.current { l.queue l.current with visible := fs }
      reader
      obtained := l.obtained ++ if f.isDelimiter then [] else [f] } l.current := by
  have hall : (l.queue l.current).all = f :: ({ l.queue l.current with visible := fs } :
      Segments Frame).all := by
    rw [Segments.all, hv]
    rfl
  constructor <;> dsimp only
  case le => exact hf.le
  case blank =>
    intro i hi
    rw [Function.update_of_ne (Nat.ne_of_gt hi)]
    exact hf.blank i hi
  case sane =>
    rw [Function.update_self]
    have hw := hf.sane.whole
    rw [hv] at hw
    exact ⟨whole_of_cons hw, hf.sane.staged⟩
  case books =>
    rw [Function.update_self, hf.books, Segments.data, hall, List.append_assoc]
    cases hd : f.isDelimiter with
    | true => simp [hd, Segments.data]
    | false => simp [hd, Segments.data]
  case streaming =>
    rw [Function.update_self]
    intro ha f' hf'
    exact hf.streaming ha f' (hall ▸ List.mem_cons_of_mem _ hf')
  case ended =>
    intro hr' ht
    rw [Function.update_self]
    obtain ⟨hread, hd⟩ := hr hr'
    obtain ⟨fs', hv', hd', hrest⟩ := hf.ended hread ht
    rw [hv] at hv'
    cases fs' with
    | nil =>
      rw [List.nil_append] at hv'
      rw [(List.cons.inj hv').1] at hd
      cases hd
    | cons f' fs' =>
      exact ⟨fs', (List.cons.inj hv').2, fun x hx => hd' x (List.mem_cons_of_mem _ hx), hrest⟩

/-- The reader takes the first frame. It is read if it is no delimiter; behind a delimiter nothing
is read any more. -/
theorem Sound.take (h : l.Sound) (hg : l.fed = some g) {f : Frame} {fs : List Frame}
    (hv : (l.queue l.current).visible = f :: fs) (reader : State)
    (hl : reader.isReadable = true → l.looking = true)
    (hr : reader.isReadable = true → l.reader.isReadable = true ∧ f.isDelimiter = false) :
    Sound { l with
      queue := update l.queue l.current { l.queue l.current with visible := fs }
      reader
      obtained := l.obtained ++ if f.isDelimiter then [] else [f] } := by
  have hf := h.flows g hg
  obtain rfl := hf.eq_current hv
  constructor
  case flows =>
    intro g' hg'
    obtain rfl : l.current = g' := Option.some.inj (hg.symm.trans hg')
    exact hf.take hv reader hr
  case released =>
    intro hn
    rw [show l.fed = none from hn] at hg
    cases hg
  case clean => exact h.clean
  case parked =>
    refine h.parked_update fun hi => ?_
    cases hv.symm.trans (h.parked l.current hi)
  case awake =>
    intro hr' hl'
    rw [show l.looking = false from hl'] at hl
    cases hl hr'

theorem update_idle {P : Segments Frame → Prop} (hP : ∀ s, P s → P { s with idle := true })
    {q : Nat → Segments Frame} (c i : Nat) (h : P (q i)) :
    P (update q c { q c with idle := true } i) := by
  by_cases hi : i = c
  · subst hi
    rw [Function.update_self]
    exact hP _ h
  · rw [Function.update_of_ne hi]
    exact h

/-- The reader finds nothing to read, and parks. -/
theorem Sound.dry (h : l.Sound) (hv : (l.queue l.current).visible = []) :
    Sound { l with
      queue := update l.queue l.current { l.queue l.current with idle := true }
      looking := false } := by
  constructor
  case flows =>
    intro g hg
    have hf := h.flows g hg
    refine ⟨hf.le, fun i hi => ?_, ?_, ?_, fun ha => ?_, fun hr ht => ?_⟩
    · exact update_idle (P := fun s => s.all = []) (fun _ hs => hs) _ i (hf.blank i hi)
    · exact update_idle (fun _ hs => ⟨hs.whole, hs.staged⟩) _ g hf.sane
    · exact update_idle (P := fun s => l.written = l.obtained ++ s.data) (fun _ hs => hs) _ g
        hf.books
    · exact update_idle (P := fun s => ∀ f ∈ s.all, f.isDelimiter = false) (fun _ hs => hs) _ g
        (hf.streaming ha)
    · exact update_idle (fun _ hs => hs) _ g (hf.ended hr ht)
  case released => exact h.released
  case clean => exact h.clean
  case parked => exact h.parked_update fun _ => hv
  case awake =>
    intro _ _
    left
    dsimp only
    rw [Function.update_self]

/-- The reader goes on to a fresh queue, and looks there. -/
theorem Sound.renew (h : l.Sound) :
    Sound { l with
      queue := update l.queue (l.current + 1) {}
      current := l.current + 1
      looking := true } := by
  constructor
  case flows =>
    intro g hg
    have hf := h.flows g hg
    have hq : update l.queue (l.current + 1) {} g = l.queue g :=
      Function.update_of_ne (by have := hf.le; omega) ..
    refine ⟨Nat.le_succ_of_le hf.le, fun i hi => ?_, ?_, ?_, ?_, ?_⟩ <;> dsimp only
    · by_cases hc : i = l.current + 1
      · rw [hc, Function.update_self]
        rfl
      · rw [Function.update_of_ne hc]
        exact hf.blank i hi
    · rw [hq]
      exact hf.sane
    · rw [hq]
      exact hf.books
    · rw [hq]
      exact hf.streaming
    · rw [hq]
      exact hf.ended
  case released => exact h.released
  case clean => exact h.clean
  case parked => exact h.parked_update fun _ => rfl
  case awake =>
    intro _ hl
    cases hl

/-- The reader gives its queue up, after the writer did. -/
theorem Sound.close (h : l.Sound) (hn : l.fed = none) (reader : State)
    (hr : reader.isReadable = false) :
    Sound { l with
      queue := update l.queue l.current { l.queue l.current with visible := [], idle := true }
      reader } := by
  refine ⟨fun g hg => ?_, h.released, h.clean, h.parked_update fun _ => rfl, fun hr' _ => ?_⟩
  · rw [show l.fed = some g from hg] at hn
    cases hn
  · rw [show reader.isReadable = true from hr'] at hr
    cases hr

/-! ## Either end -/

/-- Nothing changes in the queues. -/
theorem Sound.stay (h : l.Sound) (writer reader : State) (looking : Bool)
    (woken : Prop)
    (hw : writer = .active → l.writer = .active)
    (ht : reader.isReadable = true → writer = .terminated → l.writer = .terminated)
    (hr : reader.isReadable = true → l.reader.isReadable = true)
    (hl : reader.isReadable = true → looking = false →
      woken ∨ l.looking = false ∧ (l.woken → woken)) :
    Sound { l with writer, reader, looking, woken } where
  flows g hg :=
    have hf := h.flows g hg
    ⟨hf.le, hf.blank, hf.sane, hf.books, fun ha => hf.streaming (hw ha),
      fun hr' ha => hf.ended (hr hr') (ht hr' ha)⟩
  released := h.released
  clean := h.clean
  parked := h.parked
  awake hr' hl' := by
    rcases hl hr' hl' with ha | ⟨ha, hk⟩
    · exact .inr ha
    · exact (h.awake (hr hr') ha).imp_right hk

end Lane

end MessagePipe
