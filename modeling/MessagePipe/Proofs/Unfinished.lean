import MessagePipe.Proofs.Directions
import MessagePipe.Proofs.Footprint
import MessagePipe.Proofs.WholeMessages

/-!
# Messages that are given up

`rollback()` takes back the frames of a message that was begun (§4.3 of the specification: it
unwrites every staged incomplete item). The fragments of a message that is not finished stand behind
everything else in a queue. Nothing reads them, nothing wakes a reader for them, and nobody counts
them; an end that moves its stream to another queue takes them along. So a pair in which a side
composes a message is, all along, the pair in which it does not, with fragments put in; and rolling
back takes them out again.

* `View.carrying`: what the queues hold, with other fragments in one of them. What does not look at
  fragments commutes with it (`carrying_update`), as does moving a stream
  (`carrying_moveStream_self`).
* `Reacts.carrying`: an end that does not feed a queue, or only publishes what is ready there,
  reacts in the same way, whatever fragments there are. `Reacts.carrying_hiccup`: one that moves its
  stream takes them along.
* `Unfinished`: two links that are the same but for the fragments that one side has staged.
* `Unfinished.kept`: so whatever is done besides (`Composing`) comes to the same in both pairs:
  `Unfinished.flush`, `Unfinished.notice` and `Unfinished.peer` are its three cases.
* `Unfinished.run`: and so does a whole run, without the frames that are written, by induction on
  its steps.
* `rollback_undoes_unfinished`: after taking them back, both pairs are one.

Premises: the side may write at the start and has no message open. Its peer may call and take
anything in between, and mailboxes may have closed before.

Out of scope: the entries in the log, where the rollback says how many frames it took back.
-/

namespace MessagePipe

open Function (update)

/-! ## Queues with another open message -/

namespace Segments

/-- What a queue holds, with other fragments of an open message. -/
def carrying (s : Segments Frame) (F : List Frame) : Segments Frame :=
  { s with fragments := F }

theorem flush_carrying (s : Segments Frame) (F : List Frame) :
    (s.carrying F).flush = (s.flush.1, s.flush.2.carrying F) := by
  unfold flush
  split
  · next h => rw [if_pos (show s.ready = [] from h)]
  · next h => rw [if_neg (show ¬s.ready = [] from h)]; rfl

theorem write_carrying (s : Segments Frame) (F : List Frame) {f : Frame} (hf : f.hasMore = true) :
    (s.write f f.hasMore).carrying F = s.carrying F := by
  rw [hf]
  rfl

theorem wake_carrying (s : Segments Frame) (F : List Frame) : (s.carrying F).wake = s.wake := by
  rw [wake, flush_carrying, wake]

end Segments

namespace View

variable {v : View} {q i : QueueId} {F : List Frame}

/-- What the queues hold, with other fragments of an open message in one of them. -/
def carrying (v : View) (q : QueueId) (F : List Frame) : View :=
  update v q ((v q).carrying F)

theorem carrying_self : v.carrying q F q = (v q).carrying F :=
  Function.update_self ..

theorem carrying_of_ne (h : i ≠ q) : v.carrying q F i = v i :=
  Function.update_of_ne h ..

/-- The fragments that are there make no difference. -/
theorem carrying_fragments : v.carrying q (v q).fragments = v :=
  Function.update_eq_self ..

theorem visible_carrying : (v.carrying q F i).visible = (v i).visible := by
  by_cases h : i = q
  · rw [h, carrying_self]
    rfl
  · rw [carrying_of_ne h]

theorem wake_carrying : (v.carrying q F i).wake = (v i).wake := by
  by_cases h : i = q
  · rw [h, carrying_self, Segments.wake_carrying]
  · rw [carrying_of_ne h]

/-- Other queues change on their own. -/
theorem carrying_update_of_ne (h : i ≠ q) (c : Segments Frame) :
    carrying (update v i c) q F = update (v.carrying q F) i c := by
  rw [carrying, Function.update_of_ne h.symm, carrying, Function.update_comm h]

/-- What does not look at the fragments of a queue is done in the same way. -/
theorem carrying_update (T : Segments Frame → Segments Frame)
    (hT : ∀ s, T (s.carrying F) = (T s).carrying F) :
    carrying (update v i (T (v i))) q F = update (v.carrying q F) i (T (v.carrying q F i)) := by
  by_cases h : i = q
  · subst h
    rw [carrying_self, hT, carrying, carrying, Function.update_self, Function.update_idem,
      Function.update_idem]
  · rw [carrying_update_of_ne h, carrying_of_ne h]

/-- A stream that is moved takes its fragments along, whatever they are. -/
theorem carrying_moveStream_self {old w : QueueId} (hw : w ≠ old) (hb : (v w).all = [])
    (hv : Whole ((v old).visible ++ (v old).ready)) :
    (v.carrying old F).moveStream old w old = (v.moveStream old w old).carrying w F := by
  have hb' : (v.carrying old F w).all = [] := by rw [carrying_of_ne hw, hb]
  have hv' : Whole ((v.carrying old F old).visible ++ (v.carrying old F old).ready) := by
    rw [carrying_self]
    exact hv
  funext i
  by_cases hi : i = w
  · subst hi
    rw [moveStream_writer _ hw hb' hv', carrying_self, carrying_self, carrying_of_ne hw,
      moveStream_writer _ hw hb hv]
    rfl
  · rw [carrying_of_ne hi]
    by_cases ho : i = old
    · rw [ho, moveStream_retired _ hw, moveStream_retired _ hw]
    · rw [moveStream_of_ne _ ho hi ho, moveStream_of_ne _ ho hi ho, carrying_of_ne ho]

/-- Another stream is moved in the same way. -/
theorem carrying_moveStream {old w r : QueueId} (ho : old ≠ q) (hw : w ≠ q) (hr : r ≠ q) :
    (v.carrying q F).moveStream old w r = (v.moveStream old w r).carrying q F := by
  funext i
  by_cases h : i = q
  · subst h
    rw [moveStream_of_ne _ ho.symm hw.symm hr.symm, carrying_self, carrying_self,
      moveStream_of_ne _ ho.symm hw.symm hr.symm]
  · rw [carrying_of_ne h]
    exact moveStream_congr (carrying_of_ne ho) (carrying_of_ne hw) (carrying_of_ne hr)
      (carrying_of_ne h)

end View

section Reacts

variable {p : Pipe} {v : View} {st : Stimulus} {r : Reaction} {q : QueueId}

/-- **An end that does not feed a queue, or only publishes what is ready there, does not see its
fragments.** -/
theorem Reacts.carrying (h : Reacts p v st r) (F : List Frame)
    (hp : p.outbound = some q → st = .call .flush)
    (hfresh : st = .call .hiccup → QueueId.inbound p.id (p.generation + 1) ≠ q)
    (hnotice : ∀ w r old, st = .command (.hiccup w r) → p.outbound = some old → w ≠ q ∧ r ≠ q) :
    Reacts p (v.carrying q F) st { r with view := r.view.carrying q F } := by
  have hne : st ≠ .call .flush → ∀ {i : QueueId}, p.outbound = some i → i ≠ q :=
    fun hst i hi he => hst (hp (he ▸ hi))
  have hvisible := fun i => View.visible_carrying (v := v) (q := q) (i := i) (F := F)
  cases h with
  | writeDelimiter hf => exact .writeDelimiter hf
  | writeRefused hf h => exact .writeRefused hf h
  | writeFull hf ho hs hn => exact .writeFull hf ho hs hn
  | writeAccepted hf ho hs hn hq =>
    refine (Reacts.writeAccepted hf ho hs hn hq).of_eq ?_
    rw [View.carrying_of_ne (hne nofun hq), View.carrying_update_of_ne (hne nofun hq)]
  | checkWriteTrue ho hs hn => exact .checkWriteTrue ho hs hn
  | checkWriteFalse h => exact .checkWriteFalse h
  | checkWriteFull ho hs hn => exact .checkWriteFull ho hs hn
  | flushNothing h => exact .flushNothing h
  | flush hs hq =>
    refine (Reacts.flush hs hq).of_eq ?_
    rw [View.carrying_update (fun s => s.flush.2) fun s => congrArg Prod.snd (s.flush_carrying F),
      View.wake_carrying]
  | rollbackNothing hq => exact .rollbackNothing hq
  | rollback hq h =>
    refine (Reacts.rollback hq (by rwa [View.carrying_of_ne (hne nofun hq)])).of_eq ?_
    rw [View.carrying_of_ne (hne nofun hq), View.carrying_update_of_ne (hne nofun hq)]
  | rollbackFault hq h =>
    refine (Reacts.rollbackFault hq (by rwa [View.carrying_of_ne (hne nofun hq)])).of_eq ?_
    rw [View.carrying_of_ne (hne nofun hq), View.carrying_update_of_ne (hne nofun hq)]
  | lookIdle hc hm => exact .lookIdle hc hm
  | readClosed hm hi => exact .readClosed hm hi
  | checkReadClosed hm hi => exact .checkReadClosed hm hi
  | lookDry hc hm hi hv =>
    refine (Reacts.lookDry hc hm hi ((hvisible _).trans hv)).of_eq ?_
    rw [View.carrying_update (fun s => { s with idle := true }) fun _ => rfl]
  | @lookDelimiter c _ i f fs _ _ hc hm hi hv hf hon =>
    refine (Reacts.lookDelimiter hc hm hi ((hvisible _).trans hv) hf hon).of_eq ?_
    rw [View.carrying_update (fun s => { s with visible := fs }) fun _ => rfl]
  | @readFrame i f fs hm hi hv hf =>
    refine (Reacts.readFrame hm hi ((hvisible _).trans hv) hf).of_eq ?_
    rw [View.carrying_update (fun s => { s with visible := fs }) fun _ => rfl]
  | seeFrame hm hi hv hf => exact .seeFrame hm hi ((hvisible _).trans hv) hf
  | terminateIgnored hon => exact .terminateIgnored hon
  | terminateReleased hon ha hq => exact .terminateReleased hon ha hq
  | terminate hon ha hq h =>
    have hi := hne nofun (Pipe.outbound_of_signalled hq)
    refine (Reacts.terminate hon ha hq (by rwa [View.carrying_of_ne hi])).of_eq ?_
    rw [View.carrying_of_ne hi, View.carrying_update_of_ne hi]
  | terminateFault hon ha hq h =>
    have hi := hne nofun (Pipe.outbound_of_signalled hq)
    refine (Reacts.terminateFault hon ha hq (by rwa [View.carrying_of_ne hi])).of_eq ?_
    rw [View.carrying_of_ne hi, View.carrying_update_of_ne hi]
  | hiccupIgnored h => exact .hiccupIgnored h
  | hiccup hs hi =>
    refine (Reacts.hiccup hs hi).of_eq ?_
    rw [View.carrying_update_of_ne (hfresh rfl)]
  | pipeTerm hon => exact .pipeTerm hon
  | pipeTermFault hon => exact .pipeTermFault hon
  | pipeTermAckTwice hi => exact .pipeTermAckTwice hi
  | pipeTermAckFault hi hon => exact .pipeTermAckFault hi hon
  | pipeTermAck hi hon =>
    refine (Reacts.pipeTermAck hi hon).of_eq ?_
    rw [View.carrying_update (fun s => { s with visible := [], idle := true }) fun _ => rfl]
  | activateRead h hs => exact .activateRead h hs
  | activateReadIgnored h => exact .activateReadIgnored h
  | activateWrite h hs => exact .activateWrite h hs
  | activateWriteQuiet h => exact .activateWriteQuiet h
  | hiccupReleased hq => exact .hiccupReleased hq
  | hiccupMoved hs hq =>
    obtain ⟨hw, hr⟩ := hnotice _ _ _ rfl hq
    refine (Reacts.hiccupMoved hs hq).of_eq ?_
    rw [View.carrying_moveStream (hne nofun hq) hw hr, View.carrying_of_ne hw,
      View.carrying_update_of_ne hw]
  | hiccupUnflushed hs hq =>
    obtain ⟨hw, hr⟩ := hnotice _ _ _ rfl hq
    refine (Reacts.hiccupUnflushed hs hq).of_eq ?_
    rw [View.carrying_moveStream (hne nofun hq) hw hr]

/-- **An end that moves its stream takes its fragments along.** -/
theorem Reacts.carrying_hiccup {w : QueueId} (h : Reacts p v (.command (.hiccup w q)) r)
    (F : List Frame) (hs : p.state ≠ .terminating) (hq : p.outbound = some q) (hw : w ≠ q)
    (hb : (v w).all = []) (hv : Whole ((v q).visible ++ (v q).ready)) :
    Reacts p (v.carrying q F) (.command (.hiccup w q)) { r with view := r.view.carrying w F } := by
  obtain rfl := h.unique (.hiccupMoved hs hq)
  refine (Reacts.hiccupMoved hs hq).of_eq ?_
  rw [View.carrying_moveStream_self hw hb hv, View.wake_carrying,
    View.carrying_update (fun s => s.flush.2) fun s => congrArg Prod.snd (s.flush_carrying F)]

/-- Fragments that are carried along unseen are the same afterwards. -/
theorem Reacts.fragments_eq {q' : QueueId} (h : Reacts p v st r)
    (hcarry : ∀ F, Reacts p (v.carrying q F) st { r with view := r.view.carrying q' F }) :
    (r.view q').fragments = (v q).fragments := by
  have hsame := hcarry (v q).fragments
  rw [View.carrying_fragments] at hsame
  have hview : r.view = r.view.carrying q' (v q).fragments :=
    congrArg Reaction.view (h.unique hsame)
  rw [hview, View.carrying_self]
  rfl

end Reacts

namespace Link

/-! ## One step with fragments and without -/

variable {config : Config} {a b : Plan} {may : Link → Step → Prop} {tr : Trace} {l m : Link}
  {s : Side} {q q' : QueueId}

/-- The frames that side `s` writes with a step. -/
def Step.framesOf (s : Side) : Step → List Frame
  | .call s' (.write f) => if s' = s then [f] else []
  | _ => []

/-- Is a step none by which side `s` writes a frame? -/
def Step.isBeside (s : Side) (step : Step) : Bool :=
  (step.framesOf s).isEmpty

/-- What may be done while side `s` composes a message: it writes frames of which more follow, it
publishes, and it takes notices of replaced queues; its peer does anything. -/
inductive Composing (s : Side) (l : Link) : Step → Prop where
  | write {f : Frame} (hm : f.hasMore = true) (hf : f.isDelimiter = false) :
      Composing s l (.call s (.write f))
  | flush : Composing s l (.call s .flush)
  | notice {w r : QueueId} {left : List Command} (hc : l.commands s = .hiccup w r :: left) :
      Composing s l (.deliver s)
  | peerCall (c : Call) : Composing s l (.call s.other c)
  | peerDeliver : Composing s l (.deliver s.other)

/-- Side `s` of both pairs feeds the queue `q`, and may write to it. They are the same but for the
fragments there: in `m` there are none. -/
structure Unfinished (l m : Link) (s : Side) (q : QueueId) : Prop where
  pipe : ∀ s', (m.side s').pipe = (l.side s').pipe
  view : m.view = l.view.carrying q []
  commands : ∀ s', m.commands s' = l.commands s'
  receiving : ∀ s', (m.side s').inbox.receiving = (l.side s').inbox.receiving
  listening : ∀ s', (m.side s').listening = (l.side s').listening
  outbound : (l.side s).pipe.outbound = some q
  active : (l.side s).pipe.state = .active
  outActive : (l.side s).pipe.outActive = true
  room : (l.side s).pipe.isFull = false

theorem Took.commands_congr {st : Stimulus} {r r' : Reaction} {rep rep' : Report} {l' m' : Link}
    (ht : Took l s st r rep l') (hm : Took m s st r' rep' m') (hposted : r'.posted = r.posted)
    (hcommands : ∀ s', m.commands s' = l.commands s')
    (hreceiving : ∀ s', (m.side s').inbox.receiving = (l.side s').inbox.receiving) (s' : Side) :
    m'.commands s' = l'.commands s' := by
  rcases s.eq_or_eq_other s' with rfl | rfl
  · exact List.append_cancel_left (hm.inbox.symm.trans ((hcommands _).trans ht.inbox))
  · rw [ht.outbox, hm.outbox, hcommands, hreceiving, hposted]

/-- **A step that carries the fragments along unseen comes to the same without them.** -/
theorem Unfinished.took (hd : Unfinished l m s q) (step : Step) {st : Stimulus} {r r' : Reaction}
    (ht : Took l step.side st r (l.step step).1 (l.step step).2)
    (hm : Took m step.side st r' (m.step step).1 (m.step step).2)
    (hcarry : ∀ F, Reacts (l.side step.side).pipe (l.view.carrying q F) st
      { r with view := r.view.carrying q' F })
    (hpipe : ((l.step step).2.side s).pipe =
      { (l.side s).pipe with outbound := some q', outActive := true }) :
    Unfinished (l.step step).2 (m.step step).2 s q' ∧ m.deed step = l.deed step ∧
      ((l.step step).2.view q').fragments = (l.view q).fragments := by
  have hr : r' = { r with view := r.view.carrying q' [] } := by
    have hreacts := hm.reacts
    rw [hd.pipe, hd.view] at hreacts
    exact hreacts.unique (hcarry [])
  have htaken : step.taken m = step.taken l := by
    cases step with
    | deliver s' => exact congrArg List.head? (hd.commands s')
    | _ => rfl
  refine ⟨⟨fun s' => ?_, ?_, ht.commands_congr hm (by rw [hr]) hd.commands hd.receiving,
    fun s' => ?_, fun s' => ?_, ?_, ?_, ?_, ?_⟩, ?_, ?_⟩
  · rcases step.side.eq_or_eq_other s' with rfl | rfl
    · rw [hm.own, ht.own, hr]
    · rw [hm.peer, ht.peer, hd.pipe]
  · rw [hm.view, ht.view, hr]
  · rw [hm.receiving, ht.receiving, hd.receiving]
  · rw [hm.listening, ht.listening, hd.listening]
  · rw [hpipe]
  · rw [hpipe]
    exact hd.active
  · rw [hpipe]
  · rw [hpipe, ← hd.room]
    exact Pipe.isFull_congr rfl rfl rfl
  · rw [hm.deed_eq, ht.deed_eq, htaken, hd.listening, hr]
  · rw [ht.view]
    exact ht.reacts.fragments_eq hcarry

/-- A fragment is accepted, and is the only thing that the pairs differ in. -/
theorem Unfinished.write (hd : Unfinished l m s q) {f : Frame} (hm : f.hasMore = true)
    (hf : f.isDelimiter = false) :
    Unfinished (l.step (.call s (.write f))).2 m s q ∧
      ((l.step (.call s (.write f))).2.view q).fragments = (l.view q).fragments ++ [f] ∧
      (l.step (.call s (.write f))).1.result = .ok .accepted ∧
      Effect.commands (l.step (.call s (.write f))).1.effects = [] ∧
      Effect.events (l.step (.call s (.write f))).1.effects = [] := by
  obtain ⟨r, ht⟩ := l.took_call s (.write f)
  have hcommands := ht.commands_eq
  obtain rfl := ht.reacts.unique (.writeAccepted hf hd.outActive hd.active hd.room hd.outbound)
  have hown : ((l.step (.call s (.write f))).2.side s).pipe = (l.side s).pipe := by
    rw [ht.own, if_pos hm]
    rfl
  refine ⟨⟨fun s' => ?_, ?_, fun s' => ?_, fun s' => ?_, fun s' => ?_, ?_, ?_, ?_, ?_⟩, ?_,
    ht.result, ht.posted, ht.notified⟩
  · rcases s.eq_or_eq_other s' with rfl | rfl
    · rw [hown, hd.pipe]
    · rw [ht.peer, hd.pipe]
  · rw [hd.view, ht.view]
    dsimp only
    rw [View.carrying, View.carrying, Function.update_self, Function.update_idem,
      Segments.write_carrying _ _ hm]
  · rw [hcommands rfl, hd.commands]
  · rw [ht.receiving, hd.receiving]
  · rw [ht.listening, hd.listening]
  · rw [hown, hd.outbound]
  · rw [hown, hd.active]
  · rw [hown, hd.outActive]
  · rw [hown, hd.room]
  · rw [ht.view]
    dsimp only
    rw [Function.update_self, hm]
    rfl

theorem Unfinished.not_terminating (hd : Unfinished l m s q) :
    (l.side s).pipe.state ≠ .terminating := by
  rw [hd.active]
  nofun

theorem Unfinished.pipe_eq (hd : Unfinished l m s q) :
    (l.side s).pipe = { (l.side s).pipe with outbound := some q, outActive := true } := by
  rw [← hd.outbound, ← hd.outActive]

/-- Publishing comes to the same. -/
theorem Unfinished.flush (hd : Unfinished l m s q) :
    Unfinished (l.step (.call s .flush)).2 (m.step (.call s .flush)).2 s q ∧
      m.deed (.call s .flush) = l.deed (.call s .flush) ∧
      ((l.step (.call s .flush)).2.view q).fragments = (l.view q).fragments := by
  obtain ⟨r, ht⟩ := l.took_call s .flush
  obtain ⟨r', hm⟩ := m.took_call s .flush
  refine hd.took (.call s .flush) ht hm
    (fun F => ht.reacts.carrying F (fun _ => rfl) nofun nofun) ?_
  rw [ht.own, ht.reacts.unique (.flush hd.not_terminating hd.outbound)]
  exact hd.pipe_eq

/-- So does taking the notice of a replaced queue, and the fragments come to be in the next one. -/
theorem Unfinished.notice (h : Run config a b may tr l) (hd : Unfinished l m s q) {w r : QueueId}
    {left : List Command} (hc : l.commands s = .hiccup w r :: left) :
    Unfinished (l.step (.deliver s)).2 (m.step (.deliver s)).2 s w ∧
      m.deed (.deliver s) = l.deed (.deliver s) ∧
      ((l.step (.deliver s)).2.view w).fragments = (l.view q).fragments := by
  obtain ⟨x, hf, hx⟩ := h.exists_sound
  have hq : (x.pipe s).outbound = some q := by rw [hf.pipe, hd.outbound]
  obtain ⟨g, n, rfl, rfl, rfl, -⟩ := hx.wired.of_notice (hf.due_of_cons hc) hq
  obtain ⟨g', he, -, hflow⟩ := hx.flows_of_outbound hq
  obtain rfl : g = g' := (QueueId.inbound.inj he).2
  have hblank := hflow.blank (g + 1) (Nat.lt_succ_self g)
  have hwhole := hflow.sane.whole
  simp only [Pair.lane, hf.view] at hblank hwhole
  have hw : QueueId.inbound s.other.id (g + 1) ≠ .inbound s.other.id g := fun he =>
    Nat.succ_ne_self g (QueueId.inbound.inj he).2
  obtain ⟨r, ht⟩ := took_deliver hc
  obtain ⟨r', hm⟩ := took_deliver ((hd.commands s).trans hc)
  refine hd.took (.deliver s) ht hm (fun F =>
    ht.reacts.carrying_hiccup F hd.not_terminating hd.outbound hw hblank hwhole) ?_
  rw [ht.own, ht.reacts.unique (.hiccupMoved hd.not_terminating hd.outbound)]

/-- So does whatever the peer does. -/
theorem Unfinished.peer (h : Run config a b may tr l) (hd : Unfinished l m s q) (step : Step)
    {st : Stimulus} {r r' : Reaction} (hs : step.side = s.other)
    (ht : Took l step.side st r (l.step step).1 (l.step step).2)
    (hm : Took m step.side st r' (m.step step).1 (m.step step).2) :
    Unfinished (l.step step).2 (m.step step).2 s q ∧ m.deed step = l.deed step ∧
      ((l.step step).2.view q).fragments = (l.view q).fragments := by
  obtain ⟨x, hf, hx⟩ := h.exists_sound
  obtain ⟨g, n, rfl, hgen, -⟩ := hx.wired.outbound s q (by rw [hf.pipe, hd.outbound])
  have hpeer : ((l.step step).2.side s).pipe = (l.side s).pipe := by
    have hpeer := ht.peer
    rwa [hs, Side.other_other] at hpeer
  have hinbox := ht.inbox
  have hpipe : (l.side step.side).pipe = x.pipe s.other := by rw [hs, hf.pipe]
  refine hd.took step ht hm (fun F => ht.reacts.carrying F ?_ ?_ ?_) (hpeer.trans hd.pipe_eq) <;>
    rw [hpipe]
  · intro ho
    obtain ⟨g', -, he, -⟩ := hx.wired.outbound s.other _ ho
    rw [Side.other_other] at he
    exact absurd he.symm (Pair.inbound_ne s g' g)
  · intro _ he
    have := (QueueId.inbound.inj he).2
    omega
  · rintro w r old rfl ho
    rw [hs] at hinbox
    obtain ⟨g', -, -, rfl, rfl, -⟩ := hx.wired.of_notice (hf.due_of_cons hinbox) ho
    rw [Side.other_other]
    exact ⟨Pair.inbound_ne s _ g, Pair.inbound_ne s _ g⟩

/-- **Whatever is done besides comes to the same without the fragments.** -/
theorem Unfinished.kept (h : Run config a b may tr l) (hd : Unfinished l m s q) {step : Step}
    (hs : Composing s l step) (hn : step.framesOf s = []) :
    ∃ q', Unfinished (l.step step).2 (m.step step).2 s q' ∧ m.deed step = l.deed step ∧
      ((l.step step).2.view q').fragments = (l.view q).fragments := by
  cases hs with
  | write hm hf =>
    rw [Step.framesOf, if_pos rfl] at hn
    cases hn
  | flush => exact ⟨q, hd.flush⟩
  | notice hc => exact ⟨_, hd.notice h hc⟩
  | peerCall c =>
    obtain ⟨r, ht⟩ := l.took_call s.other c
    obtain ⟨r', hm⟩ := m.took_call s.other c
    exact ⟨q, hd.peer h (.call s.other c) rfl ht hm⟩
  | peerDeliver =>
    cases hc : l.commands s.other with
    | nil =>
      have hcm := (hd.commands s.other).trans hc
      refine ⟨q, ?_, ?_, ?_⟩ <;> simp only [deed, Step.taken, step_deliver_nil hc,
        step_deliver_nil hcm]
      · exact hd
      · simp [hc, hcm]
    | cons c left =>
      obtain ⟨r, ht⟩ := took_deliver hc
      obtain ⟨r', hm⟩ := took_deliver ((hd.commands s.other).trans hc)
      exact ⟨q, hd.peer h (.deliver s.other) rfl ht hm⟩

/-! ## Whole runs -/

/-- **What is done while side `s` composes a message comes to the same without its fragments.**
These grow by the frames that are written, and by nothing else. -/
theorem Unfinished.run (h : Run config a b (fun _ _ => True) tr l) (hd : Unfinished l m s q)
    {steps : List Step} (hs : Permits (Composing s) l steps) :
    ∃ q', Unfinished (l.run steps).2 (m.run (steps.filter (Step.isBeside s))).2 s q' ∧
      ((l.run steps).2.view q').fragments =
        (l.view q).fragments ++ steps.flatMap (Step.framesOf s) ∧
      m.deeds (steps.filter (Step.isBeside s)) =
        (l.deeds steps).filter (fun x => x.step.isBeside s) ∧
      ∀ x ∈ l.deeds steps, x.step.isBeside s = false →
        x.result = .ok .accepted ∧ x.posted = [] ∧ x.notified = [] := by
  induction steps generalizing tr l m q with
  | nil => exact ⟨q, hd, (List.append_nil _).symm, rfl, List.forall_mem_nil _⟩
  | cons step steps ih =>
    obtain ⟨hstep, hrest⟩ := hs
    have h' : Run config a b (fun _ _ => True) _ (l.step step).2 := h.step trivial
    rw [run_cons, deeds, List.flatMap_cons]
    cases hk : step.isBeside s with
    | true =>
      have hn : step.framesOf s = [] := List.isEmpty_iff.1 hk
      obtain ⟨q₁, hd₁, hdeed, hfragments⟩ := hd.kept h hstep hn
      obtain ⟨q', hd', hgrown, hdeeds, haccepted⟩ := ih h' hd₁ hrest
      rw [List.filter_cons_of_pos hk, run_cons, deeds, hdeed, hdeeds,
        List.filter_cons_of_pos (a := l.deed step) (p := fun x => x.step.isBeside s) hk]
      refine ⟨q', hd', by rw [hgrown, hfragments, hn, List.nil_append], rfl, ?_⟩
      exact List.forall_mem_cons.2 ⟨fun hne => (by cases hk.symm.trans hne), haccepted⟩
    | false =>
      have hk' : ¬step.isBeside s = true := by simp [hk]
      rw [List.filter_cons_of_neg hk',
        List.filter_cons_of_neg (a := l.deed step) (p := fun x => x.step.isBeside s) hk']
      cases hstep with
      | @write f hm hf =>
        obtain ⟨hd₁, hfragments, hwritten⟩ := hd.write hm hf
        obtain ⟨q', hd', hgrown, hdeeds, haccepted⟩ := ih h' hd₁ hrest
        refine ⟨q', hd', ?_, hdeeds, List.forall_mem_cons.2 ⟨fun _ => hwritten, haccepted⟩⟩
        rw [hgrown, hfragments, List.append_assoc, Step.framesOf, if_pos rfl]
      | peerCall c => cases c <;> simp [Step.isBeside, Step.framesOf, s.other_ne] at hk
      | _ => cases hk

/-- A pair without fragments is the same without them. -/
theorem unfinished_self (hq : (l.side s).pipe.outbound = some q)
    (hs : (l.side s).pipe.state = .active) (ho : (l.side s).pipe.outActive = true)
    (hn : (l.side s).pipe.isFull = false) (hf : (l.view q).fragments = []) :
    Unfinished l l s q where
  pipe _ := rfl
  view := by rw [← hf, View.carrying_fragments]
  commands _ := rfl
  receiving _ := rfl
  listening _ := rfl
  outbound := hq
  active := hs
  outActive := ho
  room := hn

/-- Taking the fragments back leaves what there is without them. -/
theorem Unfinished.rollback (hd : Unfinished l m s q)
    (hf : (l.view q).fragments.all Frame.hasMore = true) :
    Took l s (.call .rollback)
      { pipe := (l.side s).pipe, view := m.view, takenBack := (l.view q).fragments.length }
      (l.step (.call s .rollback)).1 (l.step (.call s .rollback)).2 := by
  obtain ⟨r, ht⟩ := l.took_call s .rollback
  obtain rfl := ht.reacts.unique (.rollback hd.outbound hf)
  rw [hd.view]
  exact ht

/-- **Rolling back undoes a message that was not finished, completely.** A side is in operation and
may write, and has no message open. It writes any frames of which more follow, and in between it
publishes, takes notices of replaced queues, and its peer does anything. Then all of these frames
are accepted, and if they are taken back, both ends, all queues and the commands underway are as
they are if none was written; every other step came to the same, with the same commands sent, and no
fragment is left. -/
theorem rollback_undoes_unfinished (h : Run config a b may tr l) (steps : List Step)
    (hw : (l.step (.call s .checkWrite)).1.result = .ok (.flag true))
    (hf : ∀ q, (l.side s).pipe.outbound = some q → (l.view q).fragments = [])
    (hs : Permits (Composing s) l steps) :
    let l₁ := (l.run steps).2
    let l₂ := (l₁.step (.call s .rollback)).2
    let m := (l.run (steps.filter (Step.isBeside s))).2
    (∀ x ∈ l.deeds steps, x.step.isBeside s = false →
      x.result = .ok .accepted ∧ x.posted = [] ∧ x.notified = []) ∧
    (l.deeds steps).filter (fun x => x.step.isBeside s) =
      l.deeds (steps.filter (Step.isBeside s)) ∧
    ((l₁.step (.call s .rollback)).1.result = .ok .done ∧
      Effect.commands (l₁.step (.call s .rollback)).1.effects = [] ∧
      Effect.takenBack (l₁.step (.call s .rollback)).1.effects =
        (steps.flatMap (Step.framesOf s)).length) ∧
    (∀ s', (l₂.side s').pipe = (m.side s').pipe ∧ l₂.commands s' = m.commands s') ∧
    l₂.view = m.view ∧
    ∃ q, (l₂.side s).pipe.outbound = some q ∧ (l₂.view q).fragments = [] := by
  intro l₁ l₂ m
  obtain ⟨r, ht⟩ := l.took_call s .checkWrite
  rcases ht.reacts.checkWrite_outcome with ⟨-, hactive, ho, hn⟩ | ⟨o, rfl, -⟩
  case inr => cases hw.symm.trans ht.result
  obtain ⟨x, hx, hsound⟩ := h.exists_sound
  obtain ⟨q, hq⟩ := (hx.pipe s ▸ hsound.agrees.honest s).exists_outbound hactive
  have hd := unfinished_self hq hactive ho hn (hf q hq)
  obtain ⟨q', hd', hgrown, hdeeds, haccepted⟩ := hd.run h.trivially hs
  rw [hf q hq, List.nil_append] at hgrown
  -- All that is open are frames of which more follow.
  obtain ⟨tr', h₁⟩ := h.trivially.exists_run steps
  obtain ⟨y, hy, hsound'⟩ := h₁.exists_sound
  obtain ⟨g, rfl, -, hflow⟩ := hsound'.flows_of_outbound ((hy.pipe s).symm ▸ hd'.outbound)
  have hmore := hflow.sane.all_hasMore
  simp only [Pair.lane, hy.view] at hmore
  have hroll := hd'.rollback hmore
  refine ⟨haccepted, hdeeds.symm, ⟨hroll.result, hroll.posted, ?_⟩, fun s' => ⟨?_, ?_⟩, hroll.view,
    .inbound s.other.id g, ?_, ?_⟩
  · exact hroll.takenBack.trans (congrArg List.length hgrown)
  · rcases s.eq_or_eq_other s' with rfl | rfl
    · exact hroll.own.trans (hd'.pipe _).symm
    · exact hroll.peer.trans (hd'.pipe _).symm
  · exact (hroll.commands_eq rfl s').trans (hd'.commands s').symm
  · rw [hroll.own, hd'.outbound]
  · rw [hroll.view]
    dsimp only
    rw [hd'.view, View.carrying_self]
    rfl

/-- A message is published, and another one stands behind it. Of a third one two frames are written;
between them both messages move to the queue that the peer puts up, and the first frame moves along.
Rolling back takes the two frames out of the new queue, where both messages stay. -/
theorem rollback_undoes_unfinished_of_two :
    ∃ (tr : Trace) (l : Link),
      Run {} { options := {} } { options := {} } (fun _ _ => True) tr l ∧
      let f : Frame := .ofBytes .empty
      let steps : List Step := [.call .a (.write f.withMore), .call .b .hiccup, .call .a .flush,
        .deliver .a, .call .a (.write f.withMore)]
      let l₁ := (l.run steps).2
      let l₂ := (l₁.step (.call .a .rollback)).2
      (l₁.view (.inbound Side.b.id 1)).fragments = [f.withMore, f.withMore] ∧
      Effect.takenBack (l₁.step (.call .a .rollback)).1.effects = 2 ∧
      l₂.view = (l.run [.call .b .hiccup, .call .a .flush, .deliver .a]).2.view ∧
      (l₂.side .a).pipe.msgsWritten = 2 ∧
      (l₂.view (.inbound Side.b.id 1)).all = [f, f] := by
  let f : Frame := .ofBytes .empty
  have h : Run {} { options := {} } { options := {} } (fun _ _ => True) _ _ := run_of_steps rfl
    [.call .a (.write f), .call .a .flush, .call .a (.write f)] ⟨trivial, trivial, trivial, trivial⟩
  obtain ⟨-, -, ⟨-, -, htaken⟩, hpipes, hview, -⟩ := rollback_undoes_unfinished h (s := .a)
    [.call .a (.write f.withMore), .call .b .hiccup, .call .a .flush, .deliver .a,
      .call .a (.write f.withMore)]
    (by decide)
    (fun q hq => by
      obtain rfl : .inbound Side.b.id 0 = q := Option.some.inj ((by decide : some _ = _).trans hq)
      decide)
    ⟨.write (by decide) (by decide), .peerCall _, .flush, .notice rfl,
      .write (by decide) (by decide), trivial⟩
  refine ⟨_, _, h, by decide, htaken, hview, ?_, ?_⟩
  · rw [(hpipes .a).1]
    decide
  · rw [hview]
    decide

end Link

end MessagePipe
