import MessagePipe.Proofs.Stream

/-!
# What taking a command reaches

A command that is taken looks at and changes the queues it touches (`Pipe.Touches`) and no others,
and what comes of it is determined by them. The oldest commands underway to the two ends of a pair
touch no queue in common.

Of the five commands three touch a queue: a notice those it names and the one that is fed so far
(`process_hiccup`), an acknowledgment the inbound queue that is drained (`process_pipe_term_ack`),
and a request none, since it writes no delimiter. So ends that take commands at the same time get in
each other's way only through a notice.

* `Reacts.exists_of_agree`: a command is taken in the same way whatever the queues hold that it does
  not touch.
* `Reacts.view_of_not_touches`: it leaves these alone.
* `Pair.Sound.touched`: which queues the oldest command underway to an end touches: those it feeds
  or will feed by a notice, and the one it reads by an acknowledgment.
* `Pair.Sound.disjoint`: two ends that take their oldest commands do not get in each other's way.
  The case to look at is a notice against an acknowledgment: an end that is acknowledged was asked,
  and its peer has given its outbound queue up by then, so it ignores the notice.

These are the two facts that make the diamond of `Proofs/Confluence` close.
-/

namespace MessagePipe

open Function (update)

/-- Does the endpoint look at or change the queue `q` as it takes a command? -/
def Pipe.Touches (p : Pipe) (q : QueueId) : Command → Prop
  | .pipeTermAck => p.inbound = some q
  | .hiccup w r => ∃ old, p.outbound = some old ∧ (q = old ∨ q = w ∨ q = r)
  | _ => False

namespace View

variable {v v' : View}

theorem update_congr {c c' : Segments Frame} (i : QueueId) {q : QueueId} (hc : c = c')
    (hq : v q = v' q) : update v i c q = update v' i c' q := by
  rw [Function.update_apply, Function.update_apply, hc, hq]

/-- Moving a stream depends on the queues it is about. -/
theorem moveStream_congr {old w r q : QueueId} (ho : v old = v' old) (hw : v w = v' w)
    (hr : v r = v' r) (hq : v q = v' q) : v.moveStream old w r q = v'.moveStream old w r q := by
  have hdrained : ∀ {q : QueueId}, v q = v' q →
      update v old { (v old).flush.2 with fragments := [] } q =
        update v' old { (v' old).flush.2 with fragments := [] } q :=
    fun hq => update_congr old (by rw [ho]) hq
  have hread := fun {q : QueueId} (hq : v q = v' q) =>
    update_congr (c := { update v old { (v old).flush.2 with fragments := [] } r with
      visible := [], idle := true }) r (by rw [hdrained hr]) (hdrained hq)
  unfold moveStream
  exact update_congr w (by rw [hread hw, hdrained hr, ho]) (hread hq)

end View

/-- A notice moves a stream in the same way whatever the queues hold that it does not touch. -/
theorem Pipe.moveStream_of_agree (p : Pipe) {v v' : View} {w r old : QueueId}
    (ho : p.outbound = some old) (hv : ∀ q, p.Touches q (.hiccup w r) → v' q = v q) :
    (∀ q, p.Touches q (.hiccup w r) → v'.moveStream old w r q = v.moveStream old w r q) ∧
      ∀ q, ¬p.Touches q (.hiccup w r) → q ≠ w ∧ v'.moveStream old w r q = v' q := by
  have htouch : ∀ {q : QueueId}, q = old ∨ q = w ∨ q = r → p.Touches q (.hiccup w r) :=
    fun hq => ⟨old, ho, hq⟩
  refine ⟨fun q hq => ?_, fun q hq => ?_⟩
  · exact View.moveStream_congr (hv _ (htouch (.inl rfl))) (hv _ (htouch (.inr (.inl rfl))))
      (hv _ (htouch (.inr (.inr rfl)))) (hv q hq)
  · have hold : q ≠ old := fun he => hq (htouch (.inl he))
    have hw : q ≠ w := fun he => hq (htouch (.inr (.inl he)))
    have hr : q ≠ r := fun he => hq (htouch (.inr (.inr he)))
    exact ⟨hw, v'.moveStream_of_ne hold hw hr⟩

section Reacts

variable {p : Pipe} {v : View} {c : Command} {r : Reaction}

/-- **A command is taken in the same way whatever the queues hold that it does not touch,** and
these keep it. -/
theorem Reacts.exists_of_agree (h : Reacts p v (.command c) r) {v' : View}
    (hv : ∀ q, p.Touches q c → v' q = v q) :
    ∃ w, Reacts p v' (.command c) { r with view := w } ∧
      (∀ q, p.Touches q c → w q = r.view q) ∧ ∀ q, ¬p.Touches q c → w q = v' q := by
  cases h with
  | pipeTerm hon => exact ⟨v', .pipeTerm hon, hv, fun _ _ => rfl⟩
  | pipeTermFault hon => exact ⟨v', .pipeTermFault hon, hv, fun _ _ => rfl⟩
  | pipeTermAckTwice hi => exact ⟨v', .pipeTermAckTwice hi, hv, fun _ _ => rfl⟩
  | pipeTermAckFault hi hon => exact ⟨v', .pipeTermAckFault hi hon, hv, fun _ _ => rfl⟩
  | @pipeTermAck q s a hi hon =>
    refine ⟨_, .pipeTermAck hi hon, fun q' hq => ?_, fun q' hq => ?_⟩
    · obtain rfl := Option.some.inj (hi.symm.trans hq)
      exact View.update_congr _ (by rw [hv _ hi]) (hv _ hi)
    · exact Function.update_of_ne (fun he : q' = q => hq (he ▸ hi)) ..
  | activateRead hi hs => exact ⟨v', .activateRead hi hs, hv, fun _ _ => rfl⟩
  | activateReadIgnored hn => exact ⟨v', .activateReadIgnored hn, hv, fun _ _ => rfl⟩
  | activateWrite ho hs => exact ⟨v', .activateWrite ho hs, hv, fun _ _ => rfl⟩
  | activateWriteQuiet hn => exact ⟨v', .activateWriteQuiet hn, hv, fun _ _ => rfl⟩
  | hiccupReleased hq => exact ⟨v', .hiccupReleased hq, hv, fun _ _ => rfl⟩
  | @hiccupMoved w r' old hs hq =>
    obtain ⟨hm, hn⟩ := p.moveStream_of_agree hq hv
    have hw := hm w ⟨old, hq, .inr (.inl rfl)⟩
    refine ⟨update (v'.moveStream old w r') w (v'.moveStream old w r' w).flush.2,
      (Reacts.hiccupMoved hs hq).of_eq (by rw [hw]), fun q hq' => ?_, fun q hq' => ?_⟩
    · exact View.update_congr w (by rw [hw]) (hm q hq')
    · exact (Function.update_of_ne (hn q hq').1 ..).trans (hn q hq').2
  | hiccupUnflushed hs hq =>
    obtain ⟨hm, hn⟩ := p.moveStream_of_agree hq hv
    exact ⟨_, .hiccupUnflushed hs hq, hm, fun q hq' => (hn q hq').2⟩

/-- What a command does not touch it leaves alone. -/
theorem Reacts.view_of_not_touches (h : Reacts p v (.command c) r) {q : QueueId}
    (hq : ¬p.Touches q c) : r.view q = v q := by
  obtain ⟨w, hw, -, hn⟩ := h.exists_of_agree fun _ _ => rfl
  rw [h.unique hw]
  exact hn q hq

end Reacts

namespace Pair

variable {x : Pair} {s : Side} {c c' : Command} {left left' : List Command} {q : QueueId}

/-- An end that takes its oldest command touches a queue it reads of a peer that writes no more, or
queues it feeds. -/
theorem Sound.touched (h : Sound x) (hd : x.due s = c :: left) (hq : (x.pipe s).Touches q c) :
    (∃ g, q = .inbound s.id g) ∧ (x.pipe s.other).outbound = none ∨
      (∃ g, q = .inbound s.other.id g) ∧ (x.pipe s).outbound ≠ none := by
  cases c with
  | pipeTermAck => exact .inl ⟨⟨_, h.wired.inbound s q hq⟩, h.released_of_ack hd⟩
  | hiccup w r =>
    obtain ⟨old, ho, hq⟩ := hq
    obtain ⟨g, n, rfl, rfl, rfl, -⟩ := h.wired.of_notice hd ho
    refine .inr ⟨?_, by rw [ho]; exact Option.some_ne_none _⟩
    rcases hq with rfl | rfl | rfl <;> exact ⟨_, rfl⟩
  | _ => exact hq.elim

/-- **The oldest commands underway to the two ends touch no queue in common.** -/
theorem Sound.disjoint (h : Sound x) (hd : x.due s = c :: left)
    (hd' : x.due s.other = c' :: left') (hq : (x.pipe s).Touches q c) :
    ¬(x.pipe s.other).Touches q c' := by
  intro hq'
  have hids := inbound_ne s
  rcases h.touched hd hq with ⟨⟨g, rfl⟩, ho⟩ | ⟨⟨g, rfl⟩, ho⟩ <;>
    rcases h.touched hd' hq' with ⟨⟨g', he⟩, ho'⟩ | ⟨⟨g', he⟩, ho'⟩ <;>
    rw [Side.other_other] at *
  · exact hids _ _ he
  · exact ho' ho
  · exact ho ho'
  · exact hids _ _ he.symm

end Pair

end MessagePipe
