import MessagePipe.Proofs.Faultless
import MessagePipe.Proofs.Toil

/-!
# Pairs in which one end writes and the other one reads

In the throughput program (§11.5 of the specification) side `a` writes and asks to terminate once it
is done, and side `b` reads until it finds the delimiter; no queue is replaced. What is known of
such a pair beyond any other is `Pair.OneWay`: the writer is asked by nobody, so it goes from
`active` to `terminated` and from there is taken down; and a reader that is out of reading has read
everything.

* `Stimulus.Plain`: what the two owners call; an end may take any command. It is a premise on
  stimuli and not on the pair, so the invariant is proved without a task in sight.
* `OneWay.react`: it is kept by what the two owners do.
* `Sound.obtained_of_delimiter`: whoever comes to the delimiter has read all that was written.
* `OneWay.not_full_of_idle`: where nothing is underway and the reader found nothing left, a writer
  that published all it wrote is below its watermark. This is where the count of `Proofs/Tally` is
  used: a report is due at the latest when the low watermark is reached.
* `OneWay.closed_of_idle`: and a writer that asked to terminate is taken down, as is the reader.

The last two say that a pair at rest is not stuck; `Proofs/Tasks` and `Proofs/Completion` turn them
into the completion of a transfer.

Premise: the reading side was made with delay, so that it waits for the delimiter when it is asked
to terminate. Without, it would leave off reading at once.
-/

namespace MessagePipe

open Function (update)

/-- What the owners do of a pair in which side `a` writes and side `b` reads. -/
inductive Stimulus.Plain (p : Pipe) : Side → Stimulus → Prop where
  | write (f : Frame) : Plain p .a (.call (.write f))
  | checkWrite : Plain p .a (.call .checkWrite)
  | flush : Plain p .a (.call .flush)
  | terminate (d : Bool) (hs : p.state = .active) : Plain p .a (.call (.terminate d))
  | read : Plain p .b (.call .read)
  | command (s : Side) (c : Command) : Plain p s (.command c)

section Reacts

variable {p : Pipe} {v : View} {st : Stimulus} {r : Reaction} {s : Side}

/-- Only an owner asks to terminate. -/
theorem Reacts.pipeTerm_not_posted (h : Reacts p v st r)
    (hn : ∀ d, st ≠ .call (.terminate d)) : .pipeTerm ∉ r.posted := by
  have hon : ∀ {s s' : State} {sg : Signal} {a : Action}, s.on sg = some (s', a) →
      (∀ d, sg ≠ .terminate d) → .pipeTerm ∉ a.commands := by
    intro s s' sg a hon hsg
    cases State.move_of_on hon with
    | ask | askDelimited => exact absurd rfl (hsg _)
    | _ => decide
  cases h with
  | terminateReleased | terminate | terminateFault => exact absurd rfl (hn _)
  | flush => exact not_mem_of_filter_isSignal (Segments.filter_wake rfl _) rfl
  | hiccupMoved => exact not_mem_of_filter_isSignal (Segments.filter_wake rfl _) rfl
  | lookDelimiter hc hm hi hv hf hon' => exact hon hon' (by simp)
  | pipeTerm hon' => exact hon hon' (by simp)
  | pipeTermAck hi hon' => exact hon hon' (by simp)
  | readFrame =>
    unfold Pipe.report
    split <;> simp
  | hiccup => simp
  | _ => exact List.not_mem_nil

/-- An end that is out of operation and does what its owner does with it stages nothing. -/
theorem Reacts.sent_of_not_active (h : Reacts p v st r) (hp : st.Plain p .a)
    (hs : p.state ≠ .active) (frames : List Frame) : st.sent frames r = frames := by
  cases hp with
  | terminate d hs' => exact absurd hs' hs
  | command => rfl
  | write f =>
    cases h with
    | writeAccepted hf ho hs' => exact absurd hs' hs
    | lookIdle hc | lookDry hc | lookDelimiter hc => cases hc
    | _ => simp [Stimulus.sent, Call.accepted, List.rdrop_zero]
  | checkWrite =>
    cases h with
    | lookIdle hc | lookDry hc | lookDelimiter hc => cases hc
    | _ => simp [Stimulus.sent, Call.accepted, List.rdrop_zero]
  | flush =>
    cases h with
    | lookIdle hc | lookDry hc | lookDelimiter hc => cases hc
    | _ => simp [Stimulus.sent, Call.accepted, List.rdrop_zero]

/-- An end that waits for its peer's delimiter gets out of reading by that alone, and one that is
out of reading reads nothing. -/
theorem Reacts.unreadable (h : Reacts p v st r) (hp : st.Plain p .b) (hd : p.delay = true)
    (hr : r.pipe.state.isReadable = false) :
    st.received r = [] ∧ (p.state.isReadable = false ∨ p.AtDelimiter v) := by
  cases hs : p.state.isReadable with
  | false => exact ⟨h.received_of_unreadable hs, .inl rfl⟩
  | true =>
    obtain ⟨hlook, hat⟩ := h.atDelimiter_of_unreadable (by rintro d rfl; cases hp) hd hs hr
    refine ⟨?_, .inr hat⟩
    rcases hlook with rfl | rfl
    · exact (h.of_delimiter (.inl rfl) hat).1
    · exact (h.of_delimiter (.inr rfl) hat).1

theorem Reacts.events_of_call {c : Call} (h : Reacts p v (.call c) r) : r.events = [] := by
  cases h <;> rfl

/-- An endpoint that was not taken down is taken down as its owner is told so. -/
theorem Reacts.terminated_mem (h : Reacts p v st r) (hp : p.isClosed = false) :
    .terminated ∈ r.events ↔ r.pipe.isClosed = true := by
  have hc := h.terminated_count
  rw [hp, if_neg Bool.false_ne_true, Nat.zero_add] at hc
  rw [← List.count_pos_iff, hc]
  cases r.pipe.isClosed <;> simp

end Reacts

namespace Pair

variable {x : Pair} {s : Side} {st : Stimulus} {r : Reaction} {left : List Command}

/-- Whoever comes to the delimiter has read all that was written. -/
theorem Sound.obtained_of_delimiter (h : Sound x) (hd : (x.pipe s).AtDelimiter x.view) :
    x.obtained s = x.written s.other := by
  obtain ⟨hm, q, f, fs, hi, hv, hf⟩ := id hd
  have hr := (Bool.and_eq_true_iff.1 hm).2
  have hl := h.lanes s.other
  obtain ⟨g, hg, -⟩ := h.fed_of_readable hr
  rw [lane_other] at hl hg
  have hflow := hl.flows g hg
  obtain rfl := h.wired.inbound s q hi
  obtain rfl : g = (x.pipe s).generation := hflow.eq_current hv
  obtain ⟨gs, hvis, hdata, hready, hfragments⟩ := hflow.ended hr (h.terminated_of_delimiter hd)
  have hnil : gs = [] := by
    cases gs with
    | nil => rfl
    | cons g gs =>
      rw [(List.cons.inj (hv.symm.trans hvis)).1, hdata g List.mem_cons_self] at hf
      cases hf
  have hbooks : x.written s.other = x.obtained s ++ _ := hflow.books
  rw [hbooks, Segments.data, Segments.all, hvis, hready, hfragments, hnil]
  exact (List.append_nil _).symm

/-- An end that still reads is not taken down. -/
theorem Sound.isClosed_of_readable (h : Sound x) (hr : (x.pipe s).state.isReadable = true) :
    (x.pipe s).isClosed = false :=
  ((h.agrees.meet s).of_readable hr).1

/-- Where one end is taken down, so is the other, or a command is underway to it. -/
theorem Sound.due_of_closed (h : Sound x) (hs : (x.pipe s).isClosed = true)
    (ho : (x.pipe s.other).isClosed = false) : x.due s.other ≠ [] := by
  rcases (h.agrees.meet s).of_closed hs with hc | hd
  · cases hc.symm.trans ho
  · intro hn
    refine hd ?_
    rw [stance, hn]
    rfl

/-- Side `a` writes and side `b` reads, and neither replaces a queue. -/
structure OneWay (x : Pair) : Prop where
  sound : Sound x
  tallied : Tallied x
  still : ∀ s, (x.pipe s).generation = 0
  unasked : .pipeTerm ∉ x.posted .b
  patient : (x.pipe .b).delay = true
  /-- An end that is out of reading has read everything. -/
  drained : (x.pipe .b).state.isReadable = false → x.obtained .b = x.written .a

namespace OneWay

/-- The writer is in operation and so is the reader, or the writer asked to terminate, or it was
taken down. -/
theorem cases_writer (h : OneWay x) :
    .pipeTerm ∉ x.due .a ∧
      ((x.pipe .a).state = .active ∧ (x.pipe .b).state = .active ∨
        (x.pipe .a).state = .terminated ∨ (x.pipe .a).isClosed = true) := by
  have hn : (x.stance .b).asked = false := decide_eq_false h.unasked
  obtain ⟨hd, hc⟩ := (h.sound.agrees.meet .a).of_unasked hn
  exact ⟨fun hm => hd (pipeTerm_mem_filter.2 hm), hc⟩

theorem reader_active (h : OneWay x) (ha : (x.pipe .a).state = .active) :
    (x.pipe .b).state = .active := by
  rcases h.cases_writer.2 with ⟨-, hb⟩ | hs | hc
  · exact hb
  · cases ha.symm.trans hs
  · have := h.sound.isClosed_of_readable (s := .a) (by rw [ha]; rfl)
    cases hc.symm.trans this

/-- Once the reader is taken down, the writer is out of operation and all it wrote is read. -/
theorem drained_of_closed (h : OneWay x) (hc : (x.pipe .b).isClosed = true) :
    (x.pipe .a).state ≠ .active ∧ x.obtained .b = x.written .a := by
  have hr : (x.pipe .b).state.isReadable = false := by
    by_contra hn
    rw [h.sound.isClosed_of_readable (Bool.of_not_eq_false hn)] at hc
    cases hc
  refine ⟨fun hs => ?_, h.drained hr⟩
  rw [h.reader_active hs] at hr
  cases hr

/-- **What the two owners do keeps it.** -/
theorem react (h : OneWay x) (hp : st.Plain (x.pipe s) s) (hd : x.due s = st.taken ++ left)
    (hr : Reacts (x.pipe s) x.view st r) : OneWay (x.after s st r left) := by
  constructor
  case sound => exact h.sound.react hd hr
  case tallied => exact h.tallied.react h.sound hd hr
  case still =>
    intro s'
    rcases s.eq_or_eq_other s' with rfl | rfl
    · rw [pipe_after_self, hr.generation (by rintro rfl; cases hp)]
      exact h.still _
    · rw [pipe_after_other]
      exact h.still _
  case unasked =>
    cases s with
    | a => exact h.unasked
    | b =>
      rw [posted_after_self, List.mem_append]
      rintro (hm | hm)
      · exact h.unasked hm
      · exact hr.pipeTerm_not_posted (by rintro d rfl; cases hp) hm
  case patient =>
    cases s with
    | a => exact h.patient
    | b =>
      rw [pipe_after_self, hr.delay (by rintro d rfl; cases hp)]
      exact h.patient
  case drained =>
    cases s with
    | a =>
      intro hread
      have hread : (x.pipe .b).state.isReadable = false := hread
      have hs : (x.pipe .a).state ≠ .active := fun hs => by
        rw [h.reader_active hs] at hread
        cases hread
      rw [written_after_self, hr.sent_of_not_active hp hs]
      exact h.drained hread
    | b =>
      intro hread
      rw [pipe_after_self] at hread
      obtain ⟨hrec, hold⟩ := hr.unreadable hp h.patient hread
      rw [obtained_after_self, hrec, List.append_nil]
      rcases hold with hold | hold
      · exact h.drained hold
      · exact h.sound.obtained_of_delimiter hold

/-- No end that feeds a queue is told of a newer one. -/
theorem calm (h : OneWay x) {q : QueueId} (hq : (x.pipe s).outbound = some q) (w r : QueueId) :
    .hiccup w r ∉ x.due s := by
  obtain ⟨g, n, -, hg, hn⟩ := h.sound.wired.outbound s q hq
  rw [h.still] at hg
  obtain rfl : n = 0 := by omega
  intro hm
  have : CommandOf.hiccup w r ∈ (x.due s).filter CommandOf.isHiccup := List.mem_filter.2 ⟨hm, rfl⟩
  rw [hn] at this
  cases this

/-- A reader that found nothing left, and is told nothing, has nothing left to read. -/
theorem visible_of_idle (h : OneWay x) (hd : x.due .b = []) (hm : (x.pipe .b).mayRead = false)
    (hr : (x.pipe .b).state.isReadable = true) :
    ∃ q, (x.pipe .a).outbound = some q ∧ (x.view q).visible = [] := by
  obtain ⟨g, -, ho⟩ := h.sound.fed_of_readable hr
  have ho : (x.pipe .a).outbound = some (.inbound Side.b.id g) := ho
  refine ⟨_, ho, ?_⟩
  by_contra hv
  have hi : (x.pipe .b).inActive = false := by simpa [Pipe.mayRead, hr] using hm
  rcases h.sound.wakes hr hi ho hv with hw | ⟨w, r, hw⟩
  · rw [hd] at hw
    cases hw
  · exact h.calm ho w r hw

/-- **At rest, a writer that published all it wrote is below its watermark.** -/
theorem not_full_of_idle (h : OneWay x) (hd : ∀ s, x.due s = [])
    (hm : (x.pipe .b).mayRead = false) (ha : (x.pipe .a).state = .active)
    (hq : ∀ q, (x.pipe .a).outbound = some q →
      (x.view q).ready = [] ∧ (x.view q).fragments = []) : (x.pipe .a).isFull = false := by
  have hb : (x.pipe .b).state.isReadable = true := by
    rw [h.reader_active ha]
    rfl
  obtain ⟨q, ho, hv⟩ := h.visible_of_idle (hd .b) hm hb
  obtain ⟨hready, hfragments⟩ := hq q ho
  -- Nothing is stored, so all that was written is read, and what is not reported is too little.
  have hstored : (x.view q).messages = 0 := by
    rw [Segments.messages, Segments.all, hv, hready, hfragments]
    rfl
  have hfed : _ + (x.pipe .b).msgsRead = (x.pipe .a).msgsWritten :=
    h.sound.messages_fed h.tallied ho
  have hrep := h.tallied.reported .a
  rw [hd] at hrep
  have hle : (x.pipe .b).lwm ≤ (x.pipe .a).hwm := h.tallied.lwm_le .a
  by_contra hf
  obtain ⟨hw, hwritten⟩ := Pipe.le_of_isFull (Bool.of_not_eq_false hf)
  have hlt : (x.pipe .b).msgsRead < (x.pipe .a).peersMsgsRead + (x.pipe .b).lwm :=
    hrep.lt_of_nil (h.tallied.lwm_pos .a hw)
  omega

/-- **At rest, a writer that is out of operation is taken down, and so is the reader.** -/
theorem closed_of_idle (h : OneWay x) (hd : ∀ s, x.due s = [])
    (hm : (x.pipe .b).mayRead = false) (ha : (x.pipe .a).state ≠ .active) :
    (x.pipe .a).isClosed = true ∧ (x.pipe .b).isClosed = true := by
  have hdue : ∀ s, (x.stance s).due = [] := fun s => by
    rw [stance, hd]
    rfl
  rcases (h.sound.agrees.meet .a).of_idle (hdue .a) (hdue .b) with
    ⟨hs, -⟩ | (⟨hs, -⟩ | ⟨hs, hb⟩) | ⟨hc, hc', -⟩
  · exact absurd hs ha
  · rcases h.cases_writer.2 with ⟨hs', -⟩ | hs' | hc
    · exact absurd hs' ha
    · cases hs.symm.trans hs'
    · have := h.sound.isClosed_of_readable (s := .a)
        (by rw [show (x.pipe .a).state = .pending from hs]; rfl)
      cases hc.symm.trans this
  · -- The reader would find the delimiter.
    have hr : (x.pipe .b).state.isReadable = true := by
      rw [show (x.pipe .b).state = .pending from hb]
      rfl
    obtain ⟨q, ho, hv⟩ := h.visible_of_idle (hd .b) hm hr
    obtain ⟨g, rfl, -, hflow⟩ := h.sound.flows_of_outbound ho
    obtain ⟨fs, hvis, -⟩ := hflow.ended hr hs
    rw [show (x.lane .a).queue g = x.view (.inbound Side.a.other.id g) from rfl, hv] at hvis
    exact absurd hvis.symm (by simp)
  · exact ⟨hc, hc'⟩

/-- Whatever the writer is told, it is taken down, or goes on as it was. -/
theorem command_of_writer (h : OneWay x) {c : Command} (hd : x.due .a = c :: left)
    (hr : Reacts (x.pipe .a) x.view (.command c) r) :
    .terminated ∈ r.events ∧ (x.pipe .a).state ≠ .active ∨
      .terminated ∉ r.events ∧ r.pipe.state = (x.pipe .a).state ∧
        r.pipe.outbound = (x.pipe .a).outbound ∧ r.view = x.view := by
  obtain ⟨reply, hok⟩ := h.sound.result_ok hd hr (by rintro f ⟨⟩)
  cases hr with
  | pipeTerm | pipeTermFault =>
    exact absurd (by rw [hd]; exact List.mem_cons_self) h.cases_writer.1
  | pipeTermAckTwice | pipeTermAckFault => cases hok
  | pipeTermAck hi hon =>
    refine .inl ⟨List.mem_singleton_self _, fun hs => ?_⟩
    rw [hs] at hon
    cases hon
  | hiccupMoved hs hq => exact absurd (by rw [hd]; exact List.mem_cons_self) (h.calm hq _ _)
  | hiccupUnflushed hs hq => exact absurd (by rw [hd]; exact List.mem_cons_self) (h.calm hq _ _)
  | _ => exact .inr ⟨by simp, rfl, rfl, rfl⟩

end OneWay

end Pair

end MessagePipe
