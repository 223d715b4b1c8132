import Mathlib.Algebra.BigOperators.Group.Finset.Basic
import MessagePipe.Proofs.Tally

/-!
# How much is stored at once

The memory bound of flow control (§3 and §4.2 of the specification: `messages-written −
peer-read-count ≤ hwm`). A direction has one queue that holds anything (`Pair.Stores`): those its
reader gave back before were emptied as the stream was moved on, those to come are not fed yet.
While the writer feeds it, it holds what is written and not read; once the writer gave it up, no
more than that.

* `Pair.Reached.stores`: so it is in every reachable pair. The step lemma is `Stores.writes`,
  `Stores.reads` and `Stores.moved`, by the half of the end that reacts: a write adds to the queue
  what it counts, a read takes from it what it counts, a hiccup moves the queue as a whole.
* `accounting`: in every run with open mailboxes, the reports underway to an end ascend strictly and
  lie between what it was told before and what its peer has read; the peer has read no more than the
  end wrote; what the end wrote and the peer did not read is what the queue that is fed stores; and
  with a watermark, that is at most the watermark, counting all queues of the direction.

The counters are those of `Tallied` (`Proofs/Tally`), which says what they count; here they are
compared with what is stored. A message is stored if its last frame is.

Premise: open mailboxes, for a report that is lost would leave a gap. Out of scope: the counters as
64-bit words, so the results are about fewer than 2⁶⁴ messages.
-/

namespace MessagePipe

open Function (update)

/-- Moving a stream adds nothing to the queues it is not moved to. -/
theorem View.all_moveStream_of_ne (v : View) {old writer retired id : QueueId} (ho : id ≠ old)
    (hw : id ≠ writer) (h : (v id).all = []) : (v.moveStream old writer retired id).all = [] := by
  by_cases hr : id = retired
  · subst hr
    unfold moveStream
    simp only
    rw [Function.update_of_ne hw, Function.update_self, Function.update_of_ne ho]
    simp only [Segments.all, List.append_eq_nil_iff] at h ⊢
    exact ⟨⟨trivial, h.1.2⟩, h.2⟩
  · rw [v.moveStream_of_ne ho hw hr, h]

/-! ## What a reaction does to queues the endpoint does not feed -/

section Reacts

variable {p : Pipe} {v : View} {st : Stimulus} {r : Reaction} {id : QueueId}

/-- An empty queue stays empty, unless the endpoint feeds it or is told to feed it next. -/
theorem Reacts.all_eq_nil (h : Reacts p v st r) (hv : (v id).all = []) (ho : p.outbound ≠ some id)
    (hw : ∀ w q old, st = .command (.hiccup w q) → p.outbound = some old → w ≠ id) :
    (r.view id).all = [] := by
  have hout : ∀ {q : QueueId} (c : Segments Frame), p.outbound = some q →
      (update v q c id).all = [] := fun c hq => by
    rw [Function.update_of_ne (by rintro rfl; exact ho hq), hv]
  have hin : ∀ {q : QueueId} {c : Segments Frame}, ((v q).all = [] → c.all = []) →
      (update v q c id).all = [] := fun {q c} hc => by
    by_cases hq : id = q
    · subst hq
      rw [Function.update_self]
      exact hc hv
    · rw [Function.update_of_ne hq, hv]
  cases h with
  | writeAccepted hf ho' hs hn hq => exact hout _ hq
  | flush hs hq => exact hout _ hq
  | rollback hq hall => exact hout _ hq
  | rollbackFault hq hall => exact hout _ hq
  | terminate hon ha hq hall => exact hout _ (Pipe.outbound_of_signalled hq)
  | terminateFault hon ha hq hall => exact hout _ (Pipe.outbound_of_signalled hq)
  | lookDry hc hm hi hv' => exact hin fun hn => hn
  | lookDelimiter hc hm hi hv' hf hon =>
    refine hin fun hn => ?_
    rw [Segments.all, hv'] at hn
    cases hn
  | readFrame hm hi hv' hf =>
    refine hin fun hn => ?_
    rw [Segments.all, hv'] at hn
    cases hn
  | hiccup hs hi => exact hin fun _ => rfl
  | pipeTermAck hi hon =>
    refine hin fun hn => ?_
    simp only [Segments.all, List.append_eq_nil_iff] at hn ⊢
    exact ⟨⟨trivial, hn.1.2⟩, hn.2⟩
  | hiccupMoved hs hq =>
    have hne := hw _ _ _ rfl hq
    dsimp only
    rw [Function.update_of_ne hne.symm]
    exact v.all_moveStream_of_ne (by rintro rfl; exact ho hq) hne.symm hv
  | hiccupUnflushed hs hq =>
    exact v.all_moveStream_of_ne (by rintro rfl; exact ho hq) (hw _ _ _ rfl hq).symm hv
  | _ => exact hv

/-- An endpoint that has given its outbound queue up changes no queue of the other end. -/
theorem Reacts.view_of_released (h : Reacts p v st r) (hr : r.pipe.outbound = none)
    (hi : p.inbound ≠ some id) (hn : QueueId.inbound p.id (p.generation + 1) ≠ id) :
    r.view id = v id := by
  have hin : ∀ {q : QueueId} (c : Segments Frame), p.inbound = some q →
      update v q c id = v id := fun c hq =>
    Function.update_of_ne (by rintro rfl; exact hi hq) ..
  cases h with
  | writeAccepted hf ho hs hn hq => cases hq.symm.trans hr
  | flush hs hq => cases hq.symm.trans hr
  | rollback hq hall => cases hq.symm.trans hr
  | rollbackFault hq hall => cases hq.symm.trans hr
  | terminate hon ha hq hall => cases hq.symm.trans hr
  | terminateFault hon ha hq hall => cases hq.symm.trans hr
  | lookDry hc hm hq hv => exact hin _ hq
  | lookDelimiter hc hm hq hv hf hon => exact hin _ hq
  | readFrame hm hq hv hf => exact hin _ hq
  | hiccup hs hq => exact Function.update_of_ne hn.symm ..
  | pipeTermAck hq hon => exact hin _ hq
  | hiccupMoved hs hq => cases hr
  | hiccupUnflushed hs hq => cases hr
  | _ => rfl

/-- An endpoint that does not read any more adds nothing to the queues it does not feed. -/
theorem Reacts.messages_le (h : Reacts p v st r) (hr : p.state.isReadable = false)
    (ho : ∀ q, p.outbound = some q → update v q (r.view q) id = v id)
    (hw : ∀ w q old, st = .command (.hiccup w q) → p.outbound = some old →
      r.view id = v id) : (r.view id).messages ≤ (v id).messages := by
  have hm : p.mayRead = false := by rw [Pipe.mayRead, hr, Bool.and_false]
  have hout : ∀ {q : QueueId} (c : Segments Frame), p.outbound = some q → r.view = update v q c →
      (r.view id).messages ≤ (v id).messages := fun {q} c hq hv => by
    have := ho q hq
    rw [hv, Function.update_self] at this
    rw [hv, this]
  cases h with
  | writeAccepted hf ho' hs hn hq => exact hout _ hq rfl
  | flush hs hq => exact hout _ hq rfl
  | rollback hq hall => exact hout _ hq rfl
  | rollbackFault hq hall => exact hout _ hq rfl
  | terminate hon ha hq hall => exact hout _ (Pipe.outbound_of_signalled hq) rfl
  | terminateFault hon ha hq hall => exact hout _ (Pipe.outbound_of_signalled hq) rfl
  | lookDry hc hm' => cases hm.symm.trans hm'
  | lookDelimiter hc hm' => cases hm.symm.trans hm'
  | readFrame hm' => cases hm.symm.trans hm'
  | hiccup hs hi =>
    rw [hs] at hr
    cases hr
  | @pipeTermAck q s a hi hon =>
    by_cases hq : id = q
    · subst hq
      dsimp only
      rw [Function.update_self]
      simp [Segments.messages, Segments.all]
    · dsimp only
      rw [Function.update_of_ne hq]
  | hiccupMoved hs hq => exact Nat.le_of_eq (congrArg _ (hw _ _ _ rfl hq))
  | hiccupUnflushed hs hq => exact Nat.le_of_eq (congrArg _ (hw _ _ _ rfl hq))
  | _ => exact Nat.le_refl _

/-- Messages that were completed stay counted. -/
theorem Reacts.msgsWritten_le (h : Reacts p v st r) : p.msgsWritten ≤ r.pipe.msgsWritten := by
  cases h.counts with
  | wrote hf ho hs hn hq he => rw [he]; exact Nat.le_add_right ..
  | read hf hm hi hv he => rw [he]; exact Nat.le_refl _
  | told hp => rw [hp]
  | neither hc => exact Nat.le_of_eq hc.written.symm

/-- An endpoint that does not read any more has counted what it read. -/
theorem Reacts.msgsRead_of_unreadable (h : Reacts p v st r) (hr : p.state.isReadable = false) :
    r.pipe.msgsRead = p.msgsRead := by
  rw [h.msgsRead_eq, h.received_of_unreadable hr, messages_nil, Nat.add_zero]

end Reacts

namespace Pair

/-! ## The queue that holds what is stored -/

/-- Of the direction in which side `s` writes, the queue of generation `g` holds all that is stored,
and not more than was written and not read. -/
structure Stores (x : Pair) (s : Side) (g : Nat) : Prop where
  le : g ≤ (x.pipe s.other).generation
  fed : ∀ q, (x.pipe s).outbound = some q → q = .inbound s.other.id g
  others : ∀ i, i ≠ g → (x.view (.inbound s.other.id i)).all = []
  bounded : (x.view (.inbound s.other.id g)).messages + (x.pipe s.other).msgsRead ≤
    (x.pipe s).msgsWritten

variable {x : Pair} {s : Side} {st : Stimulus} {r : Reaction} {left : List Command} {g : Nat}

/-- The bound is to be looked at only where the writer gave its queue up. -/
theorem stores_of (h : Sound x) (ht : Tallied x) (hle : g ≤ (x.pipe s.other).generation)
    (hfed : ∀ q, (x.pipe s).outbound = some q → q = .inbound s.other.id g)
    (hoth : ∀ i, i ≠ g → (x.view (.inbound s.other.id i)).all = [])
    (hb : (x.pipe s).outbound = none →
      (x.view (.inbound s.other.id g)).messages + (x.pipe s.other).msgsRead ≤
        (x.pipe s).msgsWritten) : Stores x s g where
  le := hle
  fed := hfed
  others := hoth
  bounded := by
    cases ho : (x.pipe s).outbound with
    | none => exact hb ho
    | some q =>
      obtain rfl := hfed q ho
      exact Nat.le_of_eq (h.messages_fed ht ho)

/-- Once a writer has given its stream up, it changes no queue it fed, and the bound stays. -/
theorem Stores.bounded_of_released (hs : Stores x s g) (h : Sound x)
    (hr : Reacts (x.pipe s) x.view st r) (ho : r.pipe.outbound = none) :
    (r.view (.inbound s.other.id g)).messages + (x.pipe s.other).msgsRead ≤
      r.pipe.msgsWritten := by
  have hv : r.view (.inbound s.other.id g) = x.view (.inbound s.other.id g) := by
    refine hr.view_of_released ho (fun hi => ?_) fun hi => ?_
    · exact inbound_ne s _ _ (h.wired.inbound s _ hi).symm
    · rw [h.wired.id] at hi
      exact inbound_ne s _ _ hi
  rw [hv]
  exact Nat.le_trans hs.bounded hr.msgsWritten_le

/-- The stream is moved on, and its old queue left empty. -/
theorem Stores.moved {w q old : QueueId} (hs : Stores x s g) (h : Sound x) (ht : Tallied x)
    (hd : x.due s = (Stimulus.command (.hiccup w q)).taken ++ left)
    (hr : Reacts (x.pipe s) x.view (.command (.hiccup w q)) r)
    (hold : (x.pipe s).outbound = some old) (ho : r.pipe.outbound = some w) :
    Stores (x.after s (.command (.hiccup w q)) r left) s (g + 1) := by
  have hne : ∀ {i j : Nat}, i ≠ j → QueueId.inbound s.other.id i ≠ .inbound s.other.id j :=
    fun hij he => hij (QueueId.inbound.inj he).2
  obtain rfl := hs.fed old hold
  obtain ⟨g', n, hg, rfl, rfl, hgen, -⟩ := h.wired.of_notice hd hold
  obtain rfl : g = g' := (QueueId.inbound.inj hg).2
  refine stores_of (h.react hd hr) (ht.react h hd hr) ?_ (fun q hq => ?_) (fun i hi => ?_)
    fun hn => ?_
  · rw [pipe_after_other]
    omega
  · rw [pipe_after_self, ho] at hq
    exact (Option.some.inj hq).symm
  · rw [view_after]
    by_cases hig : i = g
    · subst hig
      have hold' := x.view.moveStream_retired (hne (Nat.succ_ne_self i))
      cases hr with
      | hiccupReleased hq => cases hold.symm.trans hq
      | hiccupMoved hs' hq =>
        obtain rfl := Option.some.inj (hold.symm.trans hq)
        dsimp only
        rw [Function.update_of_ne (hne (Nat.succ_ne_self i).symm), hold']
        rfl
      | hiccupUnflushed hs' hq =>
        obtain rfl := Option.some.inj (hold.symm.trans hq)
        dsimp only
        rw [hold']
        rfl
    · refine hr.all_eq_nil (hs.others i hig) (fun hq => ?_) fun w q old he _ => ?_
      · exact hne hig (hs.fed _ hq)
      · cases he
        exact hne (Ne.symm hi)
  · rw [pipe_after_self, ho] at hn
    cases hn

/-- A reaction of the writer. -/
theorem Stores.writes (hs : Stores x s g) (h : Sound x) (ht : Tallied x)
    (hd : x.due s = st.taken ++ left) (hr : Reacts (x.pipe s) x.view st r) :
    ∃ g, Stores (x.after s st r left) s g := by
  -- As long as no other queue is fed, the queue that holds what is stored is the same one.
  have hkept : (∀ q, r.pipe.outbound = some q → q = .inbound s.other.id g) →
      (∀ w q old, st = .command (.hiccup w q) → (x.pipe s).outbound = some old → False) →
      Stores (x.after s st r left) s g := by
    intro hq hst
    refine stores_of (h.react hd hr) (ht.react h hd hr) ?_ ?_ (fun i hi => ?_) fun hn => ?_
    · rw [pipe_after_other]
      exact hs.le
    · rw [pipe_after_self]
      exact hq
    · rw [view_after]
      refine hr.all_eq_nil (hs.others i hi) (fun ho => ?_) fun w q old he ho => ?_
      · exact hi (QueueId.inbound.inj (hs.fed _ ho)).2
      · exact (hst w q old he ho).elim
    · rw [pipe_after_self] at hn
      rw [view_after, pipe_after_self, pipe_after_other]
      exact hs.bounded_of_released h hr hn
  rcases hr.outbound_cases with ho | ⟨ho, hst⟩ | ⟨w, q, old, rfl, hold, ho⟩
  · refine ⟨g, hkept (fun q hq => by cases ho.symm.trans hq) ?_⟩
    rintro w q old rfl hold
    cases hr with
    | hiccupReleased hq => cases hold.symm.trans hq
    | hiccupMoved | hiccupUnflushed => cases ho
  · refine ⟨g, hkept (fun q hq => hs.fed q (ho ▸ hq)) ?_⟩
    rintro w q old rfl
    cases hst
  · exact ⟨g + 1, hs.moved h ht hd hr hold ho⟩

/-- A reaction of the reader. -/
theorem Stores.reads (hs : Stores x s.other g) (h : Sound x) (ht : Tallied x)
    (hd : x.due s = st.taken ++ left) (hr : Reacts (x.pipe s) x.view st r) :
    Stores (x.after s st r left) s.other g := by
  have h' := h.react hd hr
  have ht' := ht.react h hd hr
  obtain ⟨hle, hfed, hoth, hb⟩ := hs
  rw [Side.other_other] at hle hfed hoth hb
  have hw : ∀ i w q old, st = .command (.hiccup w q) → (x.pipe s).outbound = some old →
      w ≠ .inbound s.id i := by
    rintro i w q old rfl hold
    exact (h.inbound_ne_of_notice hd hold i).2.1.symm
  refine stores_of h' ht' ?_ ?_ ?_ ?_ <;> rw [Side.other_other]
  · rw [pipe_after_self]
    rcases hr.inbound_cases with ⟨-, hg, -⟩ | ⟨q, -, -, hg, -⟩ <;> omega
  · rw [pipe_after_other]
    exact hfed
  · intro i hi
    rw [view_after]
    exact hr.all_eq_nil (hoth i hi) (fun hq => h.inbound_ne_outbound hq i rfl) (hw i)
  · intro hn
    rw [pipe_after_other] at hn
    rw [view_after, pipe_after_self, pipe_after_other]
    -- An end whose peer gave the stream up does not read any more.
    have hread : (x.pipe s).state.isReadable = false := by
      by_contra hread
      obtain ⟨_, _, ho⟩ := h.fed_of_readable (by simpa using hread)
      cases hn.symm.trans ho
    rw [hr.msgsRead_of_unreadable hread]
    refine Nat.le_trans (Nat.add_le_add_right (hr.messages_le hread ?_ ?_) _) hb
    · intro q hq
      exact h.update_outbound hq _ g
    · rintro w q old rfl hold
      have hmoved := h.moveStream_of_notice hd hold g
      cases hr with
      | hiccupReleased => rfl
      | hiccupMoved hs' hq =>
        obtain rfl := Option.some.inj (hold.symm.trans hq)
        exact (Function.update_of_ne (h.inbound_ne_of_notice hd hold g).2.1 ..).trans hmoved
      | hiccupUnflushed hs' hq =>
        obtain rfl := Option.some.inj (hold.symm.trans hq)
        exact hmoved

theorem Stores.equip (hs : Stores x s g) (s' : Side) (sink : Option Sink)
    (identity : Option Identity) : Stores (x.equip s' sink identity) s g := by
  obtain ⟨k, i, he⟩ := x.pipe_equip s' sink identity s
  obtain ⟨k', i', he'⟩ := x.pipe_equip s' sink identity s.other
  constructor
  case le => rw [he']; exact hs.le
  case fed => rw [he]; exact hs.fed
  case others => exact hs.others
  case bounded => rw [he, he']; exact hs.bounded

theorem stores_start {l : Link} (h : ∀ s, Link.Fresh (l.side s).pipe s) (hu : ∀ s, l.Unused s)
    (s : Side) : Stores (start fun s => (l.side s).pipe) s 0 where
  le := Nat.zero_le _
  fed q hq := by
    simp only [start, (h s).outbound] at hq
    exact (Option.some.inj hq).symm
  others _ _ := rfl
  bounded := by
    simp only [start, (hu s.other).msgsRead, (hu s).msgsWritten]
    exact Nat.le_refl _

/-- **In every reachable pair, one queue of a direction holds all that is stored of it.** -/
theorem Reached.stores {config : Config} {a b : Link.Plan} (h : Reached config a b x) (s : Side) :
    ∃ g, Stores x s g := by
  induction h generalizing s with
  | fresh h => exact ⟨0, stores_start (Link.fresh_of_create h) (Link.unused_of_create h) s⟩
  | step h hs ih =>
    cases hs with
    | @react s' st r left hd hr =>
      rcases s'.eq_or_eq_other s with rfl | rfl
      · obtain ⟨g, hg⟩ := ih s
        exact hg.writes h.sound h.tallied hd hr
      · obtain ⟨g, hg⟩ := ih s'.other
        exact ⟨g, hg.reads h.sound h.tallied hd hr⟩
    | equip s' sink identity =>
      obtain ⟨g, hg⟩ := ih s
      exact ⟨g, hg.equip s' sink identity⟩

end Pair

namespace Link

/-- How many complete messages all queues hold that were ever made for one direction. -/
def stored (l : Link) (s : Side) : Nat :=
  ∑ g ∈ Finset.range ((l.side s.other).pipe.generation + 1),
    (l.view (.inbound s.other.id g)).messages

/-- **Flow control keeps its books.** The reports underway to an end are in order and lie between
the last one it took and what the other end has read, which is no more than was written. The queue
that is fed holds what was written and not read, and where a high watermark is set, it bounds what
is written beyond the last report and all that is stored. -/
theorem accounting {config : Config} {a b : Plan} {tr : Trace} {l : Link}
    (h : OpenRun config a b tr l) (s : Side) :
    (∀ n ∈ reports (l.commands s),
        (l.side s).pipe.peersMsgsRead ≤ n ∧ n ≤ (l.side s.other).pipe.msgsRead) ∧
      (reports (l.commands s)).Pairwise (· < ·) ∧
      (l.side s).pipe.peersMsgsRead ≤ (l.side s.other).pipe.msgsRead ∧
      (l.side s.other).pipe.msgsRead ≤ (l.side s).pipe.msgsWritten ∧
      (∀ q, (l.side s).pipe.outbound = some q →
        (l.side s).pipe.msgsWritten - (l.side s.other).pipe.msgsRead = (l.view q).messages) ∧
      (0 < (l.side s).pipe.hwm →
        (l.side s).pipe.msgsWritten - (l.side s).pipe.peersMsgsRead ≤ (l.side s).pipe.hwm ∧
          l.stored s ≤ (l.side s).pipe.hwm) := by
  obtain ⟨x, hx, hf⟩ := h.exists_follows
  have ht := hx.tallied
  have hrep := ht.reported s
  have hle := ht.read_le hx.sound (s := s)
  have hfed := fun q => hx.sound.messages_fed ht (s := s) (q := q)
  have hb := ht.bounded s
  obtain ⟨g, hg⟩ := hx.stores s
  have hstored : l.stored s = (l.view (.inbound s.other.id g)).messages := by
    refine Finset.sum_eq_single g (fun i _ hi => ?_) fun hn => ?_
    · rw [← hf.view, Segments.messages, hg.others i hi]
      rfl
    · refine absurd (Finset.mem_range.2 ?_) hn
      rw [← hf.pipe]
      exact Nat.lt_succ_of_le hg.le
  have hbg := hg.bounded
  rw [hf.pipe, hf.pipe, hf.due _ (h.receiving _)] at hrep
  simp only [hf.pipe, hf.view] at hle hfed hb hbg
  refine ⟨fun n hn => ?_, hrep.pairwise, hrep.taken_le, hle, fun q hq => ?_, fun hw => ?_⟩
  · obtain ⟨h1, h2⟩ := hrep.mem hn
    exact ⟨Nat.le_of_lt h1, h2⟩
  · have := hfed q hq
    omega
  · have hbound := hb hw
    have := hrep.taken_le
    exact ⟨by omega, by omega⟩

/-- Of three messages one is read and reported, and the stream is moved on before the report
arrives. -/
theorem accounting_through_hiccup :
    ∃ (tr : Trace) (l : Link),
      OpenRun {} { options := {} } { options := { hwm := 2 } } tr l ∧
      reports (l.commands .a) = [1] ∧ (l.side .a).pipe.hwm = 2 ∧
      (l.side .a).pipe.outbound = some (.inbound ⟨2⟩ 0) ∧
      (l.side .a).pipe.msgsWritten = 2 ∧ (l.side .b).pipe.msgsRead = 1 ∧
      (l.view (.inbound ⟨2⟩ 0)).messages = 1 ∧ l.stored .a ≤ 2 := by
  have h : OpenRun {} { options := {} } { options := { hwm := 2 } } _ _ := run_of_steps rfl
    [.call .a (.write (.ofBytes ⟨#[1]⟩)), .call .a (.write (.ofBytes ⟨#[2]⟩)),
      .call .a (.write (.ofBytes ⟨#[3]⟩)), .call .a .flush, .call .b .read, .call .b .hiccup]
    ⟨rfl, rfl, rfl, rfl, rfl, rfl, trivial⟩
  have hacc := accounting h .a
  have hq := hacc.2.2.2.2.1 (.inbound ⟨2⟩ 0) (by decide)
  have hw := hacc.2.2.2.2.2 (by decide)
  exact ⟨_, _, h, by decide, by decide, by decide, by decide, by decide, hq.symm.trans (by decide),
    hw.2⟩

end Link

end MessagePipe
