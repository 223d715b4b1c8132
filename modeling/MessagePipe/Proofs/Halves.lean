import MessagePipe.Proofs.Footprint

/-!
# The two halves of an end

An end writes in one direction and reads in the other, and keeps different things for the two: its
outbound queue with `out_active`, the watermark and the counts of messages written and reported
read; its inbound queue with `in_active`, the low watermark and the count of messages read. A
stimulus is about one half: it looks at and changes what is kept for that half (`Pipe.writing`,
`Pipe.reading`) and the queues of its direction, and says nothing in the other one.

* `Stimulus.writes`, `Stimulus.reads`: which half a call or a command is about. A report and a
  notice are for the half that writes, a wake-up for the half that reads. The handshake is about
  both, so no signal of it is about one half.
* `Reacts.of_writes`, `Reacts.of_reads`: what a stimulus about one half leaves alone: the other
  half, the queues of the other direction, and the commands and events of it.
* `Reacts.exists_of_writing`, `Reacts.exists_of_reading`: ends with the same half, and the same
  queues of the direction, react to it in the same way. So what an end does in one direction can be
  computed without the other.

The two facts together say that the halves are independent; `Proofs/Directions` pairs the half that
writes of one end with the half that reads of the other, and `Proofs/Independence` goes from single
reactions to runs.

Premise: an end in operation, where no delimiter is read.
-/

namespace MessagePipe

open Function (update)

/-! ## Halves -/

/-- What an end keeps for writing. -/
structure Writing where
  outbound : Option QueueId
  outActive : Bool
  hwm : Nat
  msgsWritten : Nat
  peersMsgsRead : Nat

/-- What an end keeps for reading. -/
structure Reading where
  id : PipeId
  inbound : Option QueueId
  generation : Nat
  inActive : Bool
  lwm : Nat
  msgsRead : Nat

namespace Pipe

/-- The half of an end that writes. -/
def writing (p : Pipe) : Writing where
  outbound := p.outbound
  outActive := p.outActive
  hwm := p.hwm
  msgsWritten := p.msgsWritten
  peersMsgsRead := p.peersMsgsRead

/-- The half of an end that reads. -/
def reading (p : Pipe) : Reading where
  id := p.id
  inbound := p.inbound
  generation := p.generation
  inActive := p.inActive
  lwm := p.lwm
  msgsRead := p.msgsRead

/-- An end with the writing half of another one is that one with another reading half. -/
theorem exists_of_writing {p p' : Pipe} (h : p'.writing = p.writing) (hs : p'.state = p.state) :
    ∃ q : Pipe, p' =
      { q with
        outbound := p.outbound, outActive := p.outActive, hwm := p.hwm
        msgsWritten := p.msgsWritten, peersMsgsRead := p.peersMsgsRead, state := p.state } := by
  refine ⟨p', ?_⟩
  have hw := Writing.mk.inj h
  obtain ⟨h1, h2, h3, h4, h5⟩ := hw
  rw [← h1, ← h2, ← h3, ← h4, ← h5, ← hs]

/-- An end with the reading half of another one is that one with another writing half. -/
theorem exists_of_reading {p p' : Pipe} (h : p'.reading = p.reading) (hs : p'.state = p.state) :
    ∃ q : Pipe, p' =
      { q with
        id := p.id, inbound := p.inbound, generation := p.generation, inActive := p.inActive
        lwm := p.lwm, msgsRead := p.msgsRead, state := p.state } := by
  refine ⟨p', ?_⟩
  obtain ⟨h1, h2, h3, h4, h5, h6⟩ := Reading.mk.inj h
  rw [← h1, ← h2, ← h3, ← h4, ← h5, ← h6, ← hs]

end Pipe

/-! ## What is about a half -/

/-- Is a command for the writing half of the end that takes it? -/
def CommandOf.forWriter {E : Type} : CommandOf E → Bool
  | activateWrite _ | hiccup .. => true
  | _ => false

/-- Is a command for the reading half of the end that takes it? -/
def CommandOf.forReader {E : Type} : CommandOf E → Bool
  | activateRead => true
  | _ => false

theorem CommandOf.isSignal_of_forWriter {E : Type} {c : CommandOf E} (h : c.forWriter = true) :
    c.isSignal = false := by
  cases c with
  | pipeTerm | pipeTermAck => cases h
  | _ => rfl

theorem CommandOf.isSignal_of_forReader {E : Type} {c : CommandOf E} (h : c.forReader = true) :
    c.isSignal = false := by
  cases c with
  | pipeTerm | pipeTermAck => cases h
  | _ => rfl

/-- No command is for both halves. -/
theorem CommandOf.forReader_of_forWriter {E : Type} {c : CommandOf E} (h : c.forWriter = true) :
    c.forReader = false := by
  cases c with
  | activateRead => cases h
  | _ => rfl

theorem CommandOf.forWriter_of_forReader {E : Type} {c : CommandOf E} (h : c.forReader = true) :
    c.forWriter = false := by
  cases c with
  | activateWrite | hiccup => cases h
  | _ => rfl

theorem CommandOf.forWriter_or_forReader {E : Type} {c : CommandOf E} (h : c.isSignal = false) :
    c.forWriter = true ∨ c.forReader = true := by
  cases c with
  | pipeTerm | pipeTermAck => cases h
  | activateRead => exact .inr rfl
  | activateWrite | hiccup => exact .inl rfl

/-- Is a call about the writing half? -/
def Call.writes : Call → Bool
  | write _ | checkWrite | flush | rollback => true
  | _ => false

/-- Is a call about the reading half? -/
def Call.reads : Call → Bool
  | read | checkRead | hiccup => true
  | _ => false

/-- Is an event about the writing half of the end that notifies it? -/
def Event.ofWriter : Event → Bool
  | writeActivated | hiccuped => true
  | _ => false

/-- Is an event about the reading half of the end that notifies it? -/
def Event.ofReader : Event → Bool
  | readActivated => true
  | _ => false

/-- No event is about both halves. -/
theorem Event.ofReader_of_ofWriter {e : Event} (h : e.ofWriter = true) : e.ofReader = false := by
  cases e with
  | readActivated => cases h
  | _ => rfl

theorem Event.ofWriter_of_ofReader {e : Event} (h : e.ofReader = true) : e.ofWriter = false := by
  cases e with
  | writeActivated | hiccuped => cases h
  | _ => rfl

namespace Stimulus

/-- Is a stimulus about the writing half? -/
def writes : Stimulus → Bool
  | call c => c.writes
  | command c => c.forWriter

/-- Is a stimulus about the reading half? -/
def reads : Stimulus → Bool
  | call c => c.reads
  | command c => c.forReader

theorem forWriter_of_taken {st : Stimulus} (h : st.writes = true) :
    ∀ c ∈ st.taken, c.forWriter = true := by
  cases st with
  | call => exact nofun
  | command c => exact List.forall_mem_singleton.2 h

theorem forReader_of_taken {st : Stimulus} (h : st.reads = true) :
    ∀ c ∈ st.taken, c.forReader = true := by
  cases st with
  | call => exact nofun
  | command c => exact List.forall_mem_singleton.2 h

end Stimulus

/-- The queues an end may look at as its writing half reacts. -/
def Pipe.Feeds (p : Pipe) (st : Stimulus) (q : QueueId) : Prop :=
  p.outbound = some q ∨ ∃ w r, st = .command (.hiccup w r) ∧ (q = w ∨ q = r)

/-- The queues an end may change as its reading half reacts. -/
def Pipe.Drains (p : Pipe) (q : QueueId) : Prop :=
  p.inbound = some q ∨ q = .inbound p.id (p.generation + 1)

section Reacts

variable {p p' : Pipe} {v v' : View} {st : Stimulus} {r : Reaction}

theorem Segments.forReader_of_wake {s : Segments Frame} {c : Command} (h : c ∈ s.wake) :
    c.forReader = true := by
  unfold wake at h
  split at h
  · rw [List.mem_singleton.1 h]
    rfl
  · cases h

/-- What comes of a stimulus about the writing half: the other half and what it reads stay as they
are, and only the peer's reading half is told. -/
structure Reaction.Writes (r : Reaction) (p : Pipe) (v : View) (st : Stimulus) : Prop where
  reading : r.pipe.reading = p.reading
  state : r.pipe.state = p.state
  posted : ∀ c ∈ r.posted, c.forReader = true
  events : ∀ e ∈ r.events, e.ofWriter = true
  view : ∀ q, ¬p.Feeds st q → r.view q = v q

/-- What comes of a stimulus about the reading half. -/
structure Reaction.Reads (r : Reaction) (p : Pipe) (v : View) : Prop where
  writing : r.pipe.writing = p.writing
  state : r.pipe.state = p.state
  posted : ∀ c ∈ r.posted, c.forWriter = true
  events : ∀ e ∈ r.events, e.ofReader = true
  view : ∀ q, ¬p.Drains q → r.view q = v q

/-- **A stimulus about the writing half leaves the reading half alone.** -/
theorem Reacts.of_writes (h : Reacts p v st r) (hst : st.writes = true) : r.Writes p v st := by
  have hne : ∀ {q q' : QueueId} {s : Segments Frame}, p.outbound = some q → ¬p.Feeds st q' →
      update v q s q' = v q' := fun {q q'} _ hq hn => by
    have he : q' ≠ q := fun he => hn (.inl (he ▸ hq))
    exact Function.update_of_ne he ..
  cases h with
  | writeAccepted _ _ _ _ hq | rollback hq | rollbackFault hq =>
    exact ⟨rfl, rfl, nofun, nofun, fun _ => hne hq⟩
  | flush _ hq => exact ⟨rfl, rfl, fun _ => Segments.forReader_of_wake, nofun, fun _ => hne hq⟩
  | activateWrite => exact ⟨rfl, rfl, nofun, by simp [Event.ofWriter], fun _ _ => rfl⟩
  | @hiccupMoved w r old hs hq =>
    refine ⟨rfl, rfl, fun _ => Segments.forReader_of_wake, fun e he => ?_, fun q hn => ?_⟩
    · dsimp only at he
      split at he
      · rw [List.mem_singleton.1 he]
        rfl
      · cases he
    · have ho : q ≠ old := fun he => hn (.inl (he ▸ hq))
      have hw : q ≠ w := fun he => hn (.inr ⟨w, r, rfl, .inl he⟩)
      have hr : q ≠ r := fun he => hn (.inr ⟨w, r, rfl, .inr he⟩)
      exact (Function.update_of_ne hw ..).trans (v.moveStream_of_ne ho hw hr)
  | @hiccupUnflushed w r old hs hq =>
    refine ⟨rfl, rfl, nofun, nofun, fun q hn => ?_⟩
    have ho : q ≠ old := fun he => hn (.inl (he ▸ hq))
    exact v.moveStream_of_ne ho (fun he => hn (.inr ⟨w, r, rfl, .inl he⟩))
      (fun he => hn (.inr ⟨w, r, rfl, .inr he⟩))
  | @lookIdle c _ hc | @lookDry c _ _ hc | @lookDelimiter c _ _ _ _ _ _ hc =>
    cases c <;> cases hc <;> cases hst
  | _ => cases hst <;> exact ⟨rfl, rfl, nofun, nofun, fun _ _ => rfl⟩

/-- **A stimulus about the reading half leaves the writing half alone,** unless it meets a
delimiter. -/
theorem Reacts.of_reads (h : Reacts p v st r) (hst : st.reads = true) (hd : ¬p.AtDelimiter v) :
    r.Reads p v := by
  have hne : ∀ {q q' : QueueId} {s : Segments Frame}, p.inbound = some q → ¬p.Drains q' →
      update v q s q' = v q' := fun {q q'} _ hq hn => by
    have he : q' ≠ q := fun he => hn (.inl (he ▸ hq))
    exact Function.update_of_ne he ..
  cases h with
  | lookDry _ _ hi => exact ⟨rfl, rfl, nofun, nofun, fun _ => hne hi⟩
  | lookDelimiter _ hm hi hv hf => exact absurd ⟨hm, _, _, _, hi, hv, hf⟩ hd
  | readFrame _ hi =>
    refine ⟨rfl, rfl, fun c hc => ?_, nofun, fun _ => hne hi⟩
    dsimp only at hc
    unfold Pipe.report at hc
    split at hc
    · rw [List.mem_singleton.1 hc]
      rfl
    · cases hc
  | hiccup _ hi =>
    refine ⟨rfl, rfl, by simp [CommandOf.forWriter], nofun, fun q hn => ?_⟩
    exact Function.update_of_ne (fun he => hn (.inr he)) ..
  | activateRead => exact ⟨rfl, rfl, nofun, by simp [Event.ofReader], fun _ _ => rfl⟩
  | lookIdle | readClosed | checkReadClosed | seeFrame | hiccupIgnored | activateReadIgnored =>
    exact ⟨rfl, rfl, nofun, nofun, fun _ _ => rfl⟩
  | _ => cases hst

/-- Two reactions that look the same from outside, and leave the queues the same where they were the
same before. -/
structure Reaction.Same (r' r : Reaction) (v' v : View) : Prop where
  result : r'.result = r.result
  posted : r'.posted = r.posted
  events : r'.events = r.events
  view : ∀ q, v' q = v q → r'.view q = r.view q

theorem Reaction.Same.stay {result : Except Fault Reply} {posted : List Command}
    {events : List Event} {n : Nat} :
    Reaction.Same ⟨result, p', v', posted, events, n⟩ ⟨result, p, v, posted, events, n⟩ v' v :=
  ⟨rfl, rfl, rfl, fun _ hq => hq⟩

/-- **Ends with the same writing half react in the same way to what is about it,** where the queues
it looks at hold the same. -/
theorem Reacts.exists_of_writing (h : Reacts p v st r) (hst : st.writes = true)
    (hw : p'.writing = p.writing) (hs : p'.state = p.state)
    (hv : ∀ q, p.Feeds st q → v' q = v q) :
    ∃ r', Reacts p' v' st r' ∧ r'.Same r v' v ∧ r'.pipe.writing = r.pipe.writing := by
  obtain ⟨p', rfl⟩ := Pipe.exists_of_writing hw hs
  have hout : ∀ {q}, p.outbound = some q → v' q = v q := fun hq => hv _ (.inl hq)
  cases h with
  | writeDelimiter hf => exact ⟨_, .writeDelimiter hf, .stay, rfl⟩
  | writeRefused hf h => exact ⟨_, .writeRefused hf h, .stay, rfl⟩
  | writeFull hf ho hs hn => exact ⟨_, .writeFull hf ho hs hn, .stay, rfl⟩
  | writeAccepted hf ho hs hn hq =>
    refine ⟨_, .writeAccepted hf ho hs hn hq, ⟨rfl, rfl, rfl, fun q => ?_⟩, rfl⟩
    exact View.update_congr _ (by rw [hout hq])
  | checkWriteTrue ho hs hn => exact ⟨_, .checkWriteTrue ho hs hn, .stay, rfl⟩
  | checkWriteFalse h => exact ⟨_, .checkWriteFalse h, .stay, rfl⟩
  | checkWriteFull ho hs hn => exact ⟨_, .checkWriteFull ho hs hn, .stay, rfl⟩
  | flushNothing h => exact ⟨_, .flushNothing h, .stay, rfl⟩
  | flush hs hq =>
    refine ⟨_, .flush hs hq, ⟨rfl, ?_, rfl, fun q => ?_⟩, rfl⟩
    · dsimp only
      rw [hout hq]
    · exact View.update_congr _ (by rw [hout hq])
  | rollbackNothing hq => exact ⟨_, .rollbackNothing hq, .stay, rfl⟩
  | rollback hq h =>
    refine ⟨_, .rollback hq (by rw [hout hq]; exact h), ⟨rfl, rfl, rfl, fun q => ?_⟩, rfl⟩
    exact View.update_congr _ (by rw [hout hq])
  | rollbackFault hq h =>
    refine ⟨_, .rollbackFault hq (by rw [hout hq]; exact h), ⟨rfl, rfl, rfl, fun q => ?_⟩, rfl⟩
    exact View.update_congr _ (by rw [hout hq])
  | activateWrite ho hs => exact ⟨_, .activateWrite ho hs, .stay, rfl⟩
  | activateWriteQuiet h => exact ⟨_, .activateWriteQuiet h, .stay, rfl⟩
  | hiccupReleased hq => exact ⟨_, .hiccupReleased hq, .stay, rfl⟩
  | @hiccupMoved w r old hs hq =>
    have hmove : ∀ {q}, v' q = v q → v'.moveStream old w r q = v.moveStream old w r q :=
      View.moveStream_congr (hout hq) (hv _ (.inr ⟨w, r, rfl, .inl rfl⟩))
        (hv _ (.inr ⟨w, r, rfl, .inr rfl⟩))
    have hnew := hmove (hv w (.inr ⟨w, r, rfl, .inl rfl⟩))
    refine ⟨_, .hiccupMoved hs hq, ⟨rfl, ?_, rfl, fun q hq => ?_⟩, rfl⟩
    · dsimp only
      rw [hnew]
    · exact View.update_congr _ (by rw [hnew]) (hmove hq)
  | @hiccupUnflushed w r old hs hq =>
    refine ⟨_, .hiccupUnflushed hs hq, ⟨rfl, rfl, rfl, fun q => ?_⟩, rfl⟩
    exact View.moveStream_congr (hout hq) (hv _ (.inr ⟨w, r, rfl, .inl rfl⟩))
      (hv _ (.inr ⟨w, r, rfl, .inr rfl⟩))
  | @lookIdle c _ hc | @lookDry c _ _ hc | @lookDelimiter c _ _ _ _ _ _ hc =>
    cases c <;> cases hc <;> cases hst
  | _ => cases hst

/-- **Ends with the same reading half react in the same way to what is about it.** -/
theorem Reacts.exists_of_reading (h : Reacts p v st r) (hst : st.reads = true)
    (hr : p'.reading = p.reading) (hs : p'.state = p.state)
    (hv : ∀ q, p.inbound = some q → v' q = v q) :
    ∃ r', Reacts p' v' st r' ∧ r'.Same r v' v ∧ r'.pipe.reading = r.pipe.reading := by
  obtain ⟨p', rfl⟩ := Pipe.exists_of_reading hr hs
  cases h with
  | lookIdle hc hm => exact ⟨_, .lookIdle hc hm, .stay, rfl⟩
  | readClosed hm hi => exact ⟨_, .readClosed hm hi, .stay, rfl⟩
  | checkReadClosed hm hi => exact ⟨_, .checkReadClosed hm hi, .stay, rfl⟩
  | lookDry hc hm hi he =>
    refine ⟨_, .lookDry hc hm hi (by rw [hv _ hi]; exact he), ⟨rfl, rfl, rfl, fun q => ?_⟩, rfl⟩
    exact View.update_congr _ (by rw [hv _ hi])
  | lookDelimiter hc hm hi he hf hon =>
    refine ⟨_, .lookDelimiter hc hm hi (by rw [hv _ hi]; exact he) hf hon,
      ⟨rfl, rfl, rfl, fun q => ?_⟩, rfl⟩
    exact View.update_congr _ (by rw [hv _ hi])
  | readFrame hm hi he hf =>
    refine ⟨_, .readFrame hm hi (by rw [hv _ hi]; exact he) hf,
      ⟨rfl, rfl, rfl, fun q => ?_⟩, rfl⟩
    exact View.update_congr _ (by rw [hv _ hi])
  | seeFrame hm hi he hf => exact ⟨_, .seeFrame hm hi (by rw [hv _ hi]; exact he) hf, .stay, rfl⟩
  | hiccupIgnored h => exact ⟨_, .hiccupIgnored h, .stay, rfl⟩
  | hiccup hs hi =>
    refine ⟨_, .hiccup hs hi, ⟨rfl, rfl, rfl, fun q => ?_⟩, rfl⟩
    exact View.update_congr _ rfl
  | activateRead h hs => exact ⟨_, .activateRead h hs, .stay, rfl⟩
  | activateReadIgnored h => exact ⟨_, .activateReadIgnored h, .stay, rfl⟩
  | _ => cases hst

end Reacts

end MessagePipe
