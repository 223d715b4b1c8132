import MessagePipe.Proofs.Stream
import MessagePipe.Proofs.Watermark

/-!
# What both ends count

The writer counts the messages it completed, the reader those it read to the end, and every low
watermark of them the reader reports its count (§4.2 of the specification). What is known of the
counters is `Pair.Tallied`: they agree with the frames that went each way, the reports that are
underway follow the last one that was taken without a gap, and no more messages than the high
watermark are written beyond it (§3: `messages-written − peer-read-count ≤ hwm`).

* `messages`: how many messages end among frames. A frame ends one if it is no delimiter and does
  not say that more follow. The lemmas about it are those of a sum, and `Segments.messages_data` has
  it for what a queue holds.
* `Reported`: which reports are due of a reader that has read so many messages. `Reported.read_next`
  and `Reported.take` are its two steps: one more message is read, and a report is taken.
* `Reacts.counts`: a reaction completes a message, reads one, takes a report, or does nothing to the
  counters. It is the one place where the cases of `Reacts` are gone through for counters.
* `Pipe.Cached`: where an end in operation finds it not worth writing, it is at the watermark.
* `Tallied.react`: a reaction keeps the books, put together from `bounded_react`, `reported_react`
  and `counters_react`.
* `Reached.tallied`, `Link.Run.exists_tallied`: every reachable pair is tallied, so every run is
  followed by one that is.

Premise: none. Reports that are lost with a mailbox stay underway.

Out of scope: counters that overflow 64-bit words; they are numbers here.
-/

namespace MessagePipe

/-! ## Messages among frames -/

/-- Does a frame end a message? -/
def Frame.closes (f : Frame) : Bool :=
  !f.hasMore && !f.isDelimiter

/-- How many messages end among frames. -/
def messages (fs : List Frame) : Nat :=
  fs.countP Frame.closes

@[simp] theorem messages_nil : messages [] = 0 := rfl

@[simp] theorem messages_append (fs gs : List Frame) :
    messages (fs ++ gs) = messages fs + messages gs :=
  List.countP_append

theorem messages_cons (f : Frame) (fs : List Frame) :
    messages (f :: fs) = messages [f] + messages fs :=
  messages_append [f] fs

theorem messages_singleton {f : Frame} (hf : f.isDelimiter = false) :
    messages [f] = if f.hasMore then 0 else 1 := by
  unfold messages
  rw [List.countP_singleton, Frame.closes, hf]
  cases f.hasMore <;> rfl

theorem messages_of_hasMore {fs : List Frame} (h : ∀ f ∈ fs, f.hasMore = true) :
    messages fs = 0 := by
  refine List.countP_eq_zero.2 fun f hf => ?_
  rw [Frame.closes, h f hf]
  exact Bool.false_ne_true

/-- How many bytes frames carry. -/
def totalSize : List Frame → Nat
  | [] => 0
  | f :: fs => f.size + totalSize fs

@[simp] theorem totalSize_append (fs gs : List Frame) :
    totalSize (fs ++ gs) = totalSize fs + totalSize gs := by
  induction fs with
  | nil => exact (Nat.zero_add _).symm
  | cons f fs ih => rw [List.cons_append, totalSize, totalSize, ih, Nat.add_assoc]

namespace Segments

/-- How many complete messages a queue holds, those that are not published included. -/
def messages (s : Segments Frame) : Nat :=
  MessagePipe.messages s.all

/-- No message ends with a delimiter. -/
theorem messages_data (s : Segments Frame) : MessagePipe.messages s.data = s.messages := by
  unfold messages MessagePipe.messages data
  rw [List.countP_filter]
  refine List.countP_congr fun f _ => ?_
  rw [Bool.and_eq_true, and_iff_left_iff_imp]
  exact fun h => (Bool.and_eq_true_iff.1 h).2

/-- Messages are complete before the fragments of one that is open. -/
theorem Sane.messages_fragments {s : Segments Frame} (h : s.Sane) :
    MessagePipe.messages s.fragments = 0 :=
  messages_of_hasMore fun f hf => (h.staged f hf).1

/-- Taking the fragments of an open message back takes no message. -/
theorem Sane.messages_rdrop {s : Segments Frame} (h : s.Sane) (fs : List Frame) :
    MessagePipe.messages ((fs ++ s.data).rdrop s.fragments.length) =
      MessagePipe.messages (fs ++ s.data) := by
  rw [h.rdrop_data, messages_append, messages_append, messages_data, messages_data]
  simp [messages, all, h.messages_fragments]

end Segments

/-! ## Reports -/

/-- The count a command reports, if it is a report. -/
def CommandOf.count? {E : Type} : CommandOf E → Option Nat
  | activateWrite n => some n
  | _ => none

/-- The counts reported among commands, in order. -/
def reports (cs : List Command) : List Nat :=
  cs.filterMap CommandOf.count?

@[simp] theorem reports_nil : reports [] = [] := rfl

@[simp] theorem reports_append (cs ds : List Command) :
    reports (cs ++ ds) = reports cs ++ reports ds :=
  List.filterMap_append ..

theorem mem_reports {cs : List Command} {n : Nat} : n ∈ reports cs ↔ .activateWrite n ∈ cs := by
  unfold reports
  rw [List.mem_filterMap]
  constructor
  · rintro ⟨c, hc, hn⟩
    cases c with
    | activateWrite m =>
      obtain rfl : m = n := Option.some.inj hn
      exact hc
    | _ => cases hn
  · intro h
    exact ⟨_, h, rfl⟩

theorem Action.reports_commands (a : Action) : reports a.commands = [] := by
  cases a with
  | deallocate ack => cases ack <;> rfl
  | _ => rfl

theorem Segments.reports_wake (s : Segments Frame) : reports s.wake = [] := by
  unfold wake
  split <;> rfl

theorem Pipe.reports_report (p : Pipe) (f : Frame) : reports (p.report f) =
    if !f.hasMore && p.isReportedAt (p.msgsRead + 1) then [p.msgsRead + 1] else [] := by
  unfold report
  split <;> rfl

/-- Of a reader that reports every `lwm` messages and has read `read` of them, the report of `taken`
was taken last: those due are of the multiples of `lwm` in between. -/
def Reported (lwm taken read : Nat) (due : List Nat) : Prop :=
  ∃ k n, taken = k * lwm ∧ due = (List.range' (k + 1) n).map (· * lwm) ∧ read / lwm = k + n

namespace Reported

variable {lwm taken read n : Nat} {due : List Nat}

theorem start (lwm : Nat) : Reported lwm 0 0 [] :=
  ⟨0, 0, (Nat.zero_mul _).symm, rfl, Nat.zero_div _⟩

/-- One more message is read, and reported where that is due. -/
theorem read_next (h : Reported lwm taken read due) :
    Reported lwm taken (read + 1)
      (due ++ if 0 < lwm ∧ (read + 1) % lwm = 0 then [read + 1] else []) := by
  obtain ⟨k, n, ht, rfl, hr⟩ := h
  by_cases hd : 0 < lwm ∧ (read + 1) % lwm = 0
  · refine ⟨k, n + 1, ht, ?_, ?_⟩
    · have hm : (read + 1) / lwm * lwm = read + 1 :=
        Nat.div_mul_cancel (Nat.dvd_of_mod_eq_zero hd.2)
      rw [Nat.succ_div_of_mod_eq_zero hd.2, hr] at hm
      rw [if_pos hd, List.range'_concat, List.map_append, List.map_singleton, Nat.one_mul,
        show k + 1 + n = k + n + 1 by omega, hm]
    · rw [Nat.succ_div_of_mod_eq_zero hd.2, hr, Nat.add_assoc]
  · rw [if_neg hd, List.append_nil]
    refine ⟨k, n, ht, rfl, ?_⟩
    rcases Nat.eq_zero_or_pos lwm with rfl | hl
    · rw [Nat.div_zero] at hr ⊢
      exact hr
    · rw [Nat.succ_div_of_mod_ne_zero fun hm => hd ⟨hl, hm⟩, hr]

/-- The next report is one low watermark further. -/
theorem take (h : Reported lwm taken read (n :: due)) :
    n = taken + lwm ∧ Reported lwm n read due := by
  obtain ⟨k, m, ht, hd, hr⟩ := h
  cases m with
  | zero => cases hd
  | succ m =>
    rw [List.range'_succ, List.map_cons] at hd
    obtain ⟨hn, hd⟩ := List.cons.inj hd
    exact ⟨by rw [hn, ht, Nat.succ_mul], k + 1, m, hn, hd, by omega⟩

theorem taken_le (h : Reported lwm taken read due) : taken ≤ read := by
  obtain ⟨k, n, rfl, -, hr⟩ := h
  calc k * lwm ≤ (k + n) * lwm := Nat.mul_le_mul_right _ (Nat.le_add_right ..)
    _ = read / lwm * lwm := by rw [hr]
    _ ≤ read := Nat.div_mul_le_self ..

/-- Reports are of more messages than those before, and of none that was not read. -/
theorem mem (h : Reported lwm taken read due) (hn : n ∈ due) : taken < n ∧ n ≤ read := by
  obtain ⟨k, m, rfl, rfl, hr⟩ := h
  obtain ⟨i, hi, rfl⟩ := List.mem_map.1 hn
  obtain ⟨hki, him⟩ := List.mem_range'_1.1 hi
  have hl : 0 < lwm := by
    refine Nat.pos_of_ne_zero fun h0 => ?_
    rw [h0, Nat.div_zero] at hr
    omega
  constructor
  · exact Nat.mul_lt_mul_of_pos_right hki hl
  · calc i * lwm ≤ (k + m) * lwm := Nat.mul_le_mul_right _ (by omega)
      _ = read / lwm * lwm := by rw [hr]
      _ ≤ read := Nat.div_mul_le_self ..

theorem pairwise (h : Reported lwm taken read due) : due.Pairwise (· < ·) := by
  induction due generalizing taken with
  | nil => exact .nil
  | cons n due ih =>
    have ht := h.take.2
    exact .cons (fun m hm => (ht.mem hm).1) (ih ht)

/-- Where no report is due, less than a low watermark was read since the last one. -/
theorem lt_of_nil (h : Reported lwm taken read []) (hl : 0 < lwm) : read < taken + lwm := by
  obtain ⟨k, n, rfl, hd, hr⟩ := h
  obtain rfl : n = 0 := by
    cases n with
    | zero => rfl
    | succ n => cases hd
  have hdiv := Nat.div_add_mod read lwm
  have hmod := Nat.mod_lt read hl
  rw [hr, Nat.add_zero, Nat.mul_comm] at hdiv
  omega

end Reported

/-! ## What a reaction does to the counters -/

/-- The counters of an endpoint stay as they are: no message is completed or read, nothing is
reported, and no report is taken. -/
structure Reaction.Uncounted (r : Reaction) (p : Pipe) (v : View) (st : Stimulus) : Prop where
  read : r.pipe.msgsRead = p.msgsRead
  written : r.pipe.msgsWritten = p.msgsWritten
  peers : r.pipe.peersMsgsRead = p.peersMsgsRead
  posted : reports r.posted = []
  taken : reports st.taken = []
  received : st.received r = []
  sent : ∀ frames, st.sent frames r = frames.rdrop r.takenBack
  takenBack : r.takenBack = 0 ∨
    ∃ q, p.outbound = some q ∧ r.takenBack = (v q).fragments.length
  /-- Writing is not found worthless but at the watermark. -/
  outActive : r.pipe.state = .active → r.pipe.outActive = false →
    p.state = .active ∧ (p.outActive = false ∨ p.isFull = true)

/-- What a reaction does to the counters of an endpoint. -/
inductive Reaction.Counts (r : Reaction) (p : Pipe) (v : View) : Stimulus → Prop where
  | wrote {f : Frame} {q : QueueId} (hf : f.isDelimiter = false) (ho : p.outActive = true)
      (hs : p.state = .active) (hn : p.isFull = false) (hq : p.outbound = some q)
      (hr : r = { result := .ok .accepted
                  pipe := { p with msgsWritten := p.msgsWritten + if f.hasMore then 0 else 1 }
                  view := Function.update v q ((v q).write f f.hasMore) }) :
      Counts r p v (.call (.write f))
  | read {f : Frame} {q : QueueId} {fs : List Frame} (hf : f.isDelimiter = false)
      (hm : p.mayRead = true) (hi : p.inbound = some q) (hv : (v q).visible = f :: fs)
      (hr : r = { result := .ok (.frame f), pipe := p.counted f
                  view := Function.update v q { v q with visible := fs }, posted := p.report f }) :
      Counts r p v (.call .read)
  | told {n : Nat} (hp : r.pipe = { p with peersMsgsRead := n, outActive := r.pipe.outActive })
      (ha : p.state = .active → r.pipe.outActive = true) (hc : r.posted = [])
      (hv : r.view = v) : Counts r p v (.command (.activateWrite n))
  | neither {st : Stimulus} (h : r.Uncounted p v st) : Counts r p v st

section Reacts

variable {p : Pipe} {v : View} {st : Stimulus} {r : Reaction}

theorem Reaction.Uncounted.of_command {c : Command} (hc : c.count? = none)
    (hr : r.pipe.msgsRead = p.msgsRead) (hw : r.pipe.msgsWritten = p.msgsWritten)
    (hp : r.pipe.peersMsgsRead = p.peersMsgsRead) (hn : reports r.posted = [])
    (ht : r.takenBack = 0)
    (ha : r.pipe.state = .active → r.pipe.outActive = false →
      p.state = .active ∧ (p.outActive = false ∨ p.isFull = true)) :
    r.Uncounted p v (.command c) where
  read := hr
  written := hw
  peers := hp
  posted := hn
  taken := List.filterMap_cons_none hc
  received := rfl
  sent frames := by rw [ht, List.rdrop_zero]; rfl
  takenBack := .inl ht
  outActive := ha

theorem Reaction.Uncounted.of_call {c : Call}
    (hr : r.pipe.msgsRead = p.msgsRead) (hw : r.pipe.msgsWritten = p.msgsWritten)
    (hp : r.pipe.peersMsgsRead = p.peersMsgsRead) (hn : reports r.posted = [])
    (hacc : c.accepted r.result = []) (hobt : c.obtained r.result = [])
    (ht : r.takenBack = 0 ∨ ∃ q, p.outbound = some q ∧ r.takenBack = (v q).fragments.length)
    (ha : r.pipe.state = .active → r.pipe.outActive = false →
      p.state = .active ∧ (p.outActive = false ∨ p.isFull = true)) :
    r.Uncounted p v (.call c) where
  read := hr
  written := hw
  peers := hp
  posted := hn
  taken := rfl
  received := hobt
  sent := Pair.sent_call hacc
  takenBack := ht
  outActive := ha

/-- **A reaction completes a message, reads one, takes a report, or does nothing to the
counters.** -/
theorem Reacts.counts (h : Reacts p v st r) : r.Counts p v st := by
  cases h with
  | writeAccepted hf ho hs hn hq => exact .wrote hf ho hs hn hq rfl
  | readFrame hm hi hv hf => exact .read hf hm hi hv rfl
  | activateWrite h hs => exact .told rfl (fun _ => rfl) rfl rfl
  | activateWriteQuiet h =>
    exact .told rfl (fun hs => h.resolve_right fun hn => hn hs) rfl rfl
  | writeFull hf ho hs hn =>
    exact .neither (.of_call rfl rfl rfl rfl rfl rfl (.inl rfl) fun _ _ => ⟨hs, .inr hn⟩)
  | checkWriteFull ho hs hn =>
    exact .neither (.of_call rfl rfl rfl rfl rfl rfl (.inl rfl) fun _ _ => ⟨hs, .inr hn⟩)
  | flush hs hq =>
    exact .neither (.of_call rfl rfl rfl (Segments.reports_wake _) rfl rfl (.inl rfl)
      fun ha ho => ⟨ha, .inl ho⟩)
  | rollback hq hall =>
    exact .neither (.of_call rfl rfl rfl rfl rfl rfl (.inr ⟨_, hq, rfl⟩)
      fun ha ho => ⟨ha, .inl ho⟩)
  | lookIdle hc hm =>
    exact .neither (.of_call rfl rfl rfl rfl (Pair.accepted_of_look hc _)
      (Pair.obtained_of_look hc) (.inl rfl) fun ha ho => ⟨ha, .inl ho⟩)
  | lookDry hc hm hi hv =>
    exact .neither (.of_call rfl rfl rfl rfl (Pair.accepted_of_look hc _)
      (Pair.obtained_of_look hc) (.inl rfl) fun ha ho => ⟨ha, .inl ho⟩)
  | lookDelimiter hc hm hi hv hf hon =>
    exact .neither (.of_call rfl rfl rfl (Action.reports_commands _)
      (Pair.accepted_of_look hc _) (Pair.obtained_of_look hc) (.inl rfl)
      fun ha => absurd ha (State.on_ne_active hon))
  | terminateReleased hon ha hq =>
    exact .neither (.of_call rfl rfl rfl (Action.reports_commands _) rfl rfl (.inl rfl)
      fun ha => absurd ha (State.on_ne_active hon))
  | terminate hon ha hq hall =>
    refine .neither (.of_call rfl rfl rfl ?_ rfl rfl
      (.inr ⟨_, Pipe.outbound_of_signalled hq, rfl⟩) fun ha => absurd ha (State.on_ne_active hon))
    rw [reports_append, Action.reports_commands, Segments.reports_wake, List.append_nil]
  | terminateFault hon ha hq hall =>
    exact .neither (.of_call rfl rfl rfl (Action.reports_commands _) rfl rfl (.inl rfl)
      fun ha => absurd ha (State.on_ne_active hon))
  | pipeTerm hon =>
    exact .neither (.of_command rfl rfl rfl rfl (Action.reports_commands _) rfl
      fun ha => absurd ha (State.on_ne_active hon))
  | pipeTermAck hi hon =>
    exact .neither (.of_command rfl rfl rfl rfl (Action.reports_commands _) rfl
      fun ha => absurd ha (State.on_ne_active hon))
  | hiccupMoved hs hq =>
    exact .neither (.of_command rfl rfl rfl rfl (Segments.reports_wake _) rfl
      fun _ ho => by cases ho)
  | hiccupUnflushed hs hq =>
    exact .neither (.of_command rfl rfl rfl rfl rfl rfl fun _ ho => by cases ho)
  | pipeTermFault | pipeTermAckTwice | pipeTermAckFault | activateRead | activateReadIgnored
  | hiccupReleased =>
    exact .neither (.of_command rfl rfl rfl rfl rfl rfl fun ha ho => ⟨ha, .inl ho⟩)
  | _ =>
    exact .neither (.of_call rfl rfl rfl rfl rfl rfl (.inl rfl) fun ha ho => ⟨ha, .inl ho⟩)

/-- Asked whether it may write, an endpoint agrees; or it declines, out of operation or marked as
not worth writing to from then on, if it was not marked before for its watermark. -/
theorem Reacts.checkWrite_outcome (h : Reacts p v (.call .checkWrite) r) :
    r = { result := .ok (.flag true), pipe := p, view := v } ∧
        p.state = .active ∧ p.outActive = true ∧ p.isFull = false ∨
      ∃ o, r = { result := .ok (.flag false), pipe := { p with outActive := o }, view := v } ∧
        (p.state ≠ .active ∨ o = false ∧ (p.outActive = false ∨ p.isFull = true)) := by
  cases h with
  | checkWriteTrue ho hs hn => exact .inl ⟨rfl, hs, ho, hn⟩
  | checkWriteFalse h => exact .inr ⟨_, rfl, h.symm.imp_right fun ho => ⟨ho, .inl ho⟩⟩
  | checkWriteFull ho hs hn => exact .inr ⟨false, rfl, .inr ⟨rfl, .inr hn⟩⟩
  | lookIdle hc | lookDry hc | lookDelimiter hc => cases hc

theorem Reacts.hwm (h : Reacts p v st r) : r.pipe.hwm = p.hwm := by
  cases h <;> rfl

theorem Reacts.lwm (h : Reacts p v st r) : r.pipe.lwm = p.lwm := by
  cases h <;> rfl

/-- No delimiter is handed to an owner. -/
theorem Reacts.isDelimiter_of_received (h : Reacts p v st r) {f : Frame}
    (hf : f ∈ st.received r) : f.isDelimiter = false := by
  cases h.counts with
  | wrote _ _ _ _ _ he =>
    subst he
    cases hf
  | read hd _ _ _ he =>
    subst he
    obtain rfl := List.mem_singleton.1 hf
    exact hd
  | told => cases hf
  | neither hc =>
    rw [hc.received] at hf
    cases hf

/-- The messages read are those that end among the frames the owner was handed. -/
theorem Reacts.msgsRead_eq (h : Reacts p v st r) :
    r.pipe.msgsRead = p.msgsRead + messages (st.received r) := by
  cases h.counts with
  | wrote _ _ _ _ _ he =>
    subst he
    rfl
  | read hf _ _ _ he =>
    subst he
    rw [Stimulus.received, Call.obtained, messages_singleton hf]
    rfl
  | told hp =>
    rw [hp]
    rfl
  | neither hc => rw [hc.received, hc.read, messages_nil, Nat.add_zero]

/-- An end that is out of reading obtains nothing. -/
theorem Reacts.received_of_unreadable (h : Reacts p v st r)
    (hs : p.state.isReadable = false) : st.received r = [] := by
  cases h.counts with
  | wrote _ _ _ _ _ he =>
    subst he
    rfl
  | read _ hm =>
    rw [Pipe.mayRead, hs, Bool.and_false] at hm
    cases hm
  | told => rfl
  | neither hc => exact hc.received

/-- **A reaction reports the messages it reads where that is due, and nothing else.** -/
theorem Reacts.reported {taken : Nat} {due : List Nat} (h : Reacts p v st r)
    (hp : Reported p.lwm taken p.msgsRead due) :
    Reported r.pipe.lwm taken r.pipe.msgsRead (due ++ reports r.posted) := by
  rw [h.lwm]
  cases h.counts with
  | wrote _ _ _ _ _ he =>
    subst he
    rw [reports_nil, List.append_nil]
    exact hp
  | @read f _ _ _ _ _ _ he =>
    subst he
    dsimp only [Pipe.counted]
    rw [Pipe.reports_report]
    cases f.hasMore with
    | true => simpa using hp
    | false =>
      have hnext := hp.read_next
      simpa [Pipe.isReportedAt] using hnext
  | told hpipe _ hc _ =>
    rw [hpipe, hc, reports_nil, List.append_nil]
    exact hp
  | neither hc =>
    rw [hc.posted, List.append_nil, hc.read]
    exact hp

end Reacts

/-! ## Pairs whose books balance -/

/-- Where an endpoint in operation finds it not worth writing, it is at the watermark. -/
def Pipe.Cached (p : Pipe) : Prop :=
  p.state = .active → p.outActive = false → p.isFull = true

theorem Pipe.isFull_congr {p p' : Pipe} (hh : p'.hwm = p.hwm) (hw : p'.msgsWritten = p.msgsWritten)
    (hp : p'.peersMsgsRead = p.peersMsgsRead) : p'.isFull = p.isFull := by
  unfold isFull
  rw [hh, hw, hp]

/-- Whatever an endpoint reacts to, it goes on to find writing worthless at the watermark only. -/
theorem Reacts.cached {p : Pipe} {v : View} {st : Stimulus} {r : Reaction} (h : Reacts p v st r)
    (hp : p.Cached) : r.pipe.Cached := by
  intro hs ho
  cases h.counts with
  | wrote hf ho' hs' hn hq he =>
    subst he
    cases ho'.symm.trans ho
  | read hf hm hi hv he =>
    subst he
    exact hp hs ho
  | told hpipe ha hc hv =>
    rw [hpipe] at hs
    cases (ha hs).symm.trans ho
  | neither hc =>
    rw [Pipe.isFull_congr h.hwm hc.written hc.peers]
    obtain ⟨hs', ho' | hf⟩ := hc.outActive hs ho
    · exact hp hs' ho'
    · exact hf

theorem Pipe.lt_of_not_isFull {p : Pipe} (h : p.isFull = false) (hw : 0 < p.hwm) :
    p.msgsWritten - p.peersMsgsRead < p.hwm := by
  unfold isFull at h
  simp only [hw, decide_true, Bool.true_and, decide_eq_false_iff_not] at h
  omega

theorem Pipe.le_of_isFull {p : Pipe} (h : p.isFull = true) :
    0 < p.hwm ∧ p.hwm ≤ p.msgsWritten - p.peersMsgsRead := by
  unfold isFull at h
  simpa only [Bool.and_eq_true, decide_eq_true_eq] using h

namespace Pair

/-- **The counters of a pair agree with what went each way.** -/
structure Tallied (x : Pair) : Prop where
  written : ∀ s, (x.pipe s).msgsWritten = messages (x.written s)
  read : ∀ s, (x.pipe s).msgsRead = messages (x.obtained s)
  reported : ∀ s, Reported (x.pipe s.other).lwm (x.pipe s).peersMsgsRead (x.pipe s.other).msgsRead
    (reports (x.due s))
  /-- What is written beyond the last report taken stays within the high watermark. -/
  bounded : ∀ s, 0 < (x.pipe s).hwm →
    (x.pipe s).msgsWritten ≤ (x.pipe s).peersMsgsRead + (x.pipe s).hwm
  cached : ∀ s, (x.pipe s).Cached
  lwm_le : ∀ s, (x.pipe s.other).lwm ≤ (x.pipe s).hwm
  lwm_pos : ∀ s, 0 < (x.pipe s).hwm → 0 < (x.pipe s.other).lwm

variable {x : Pair} {s : Side} {st : Stimulus} {r : Reaction} {left : List Command}

/-- Taking fragments back takes no message from what was written. -/
theorem Sound.messages_sent (h : Sound x) (hc : r.Uncounted (x.pipe s) x.view st) :
    messages (st.sent (x.written s) r) = messages (x.written s) := by
  rw [hc.sent]
  rcases hc.takenBack with hb | ⟨q, hq, hb⟩
  · rw [hb, List.rdrop_zero]
  · obtain ⟨g, rfl, -, hflow⟩ := h.flows_of_outbound hq
    have hbooks : x.written s = x.obtained s.other ++ (x.view (.inbound s.other.id g)).data :=
      hflow.books
    rw [hb, hbooks]
    exact hflow.sane.messages_rdrop _

/-- No more is reported read than was written. -/
theorem Tallied.read_le (h : Tallied x) (hx : Sound x) :
    (x.pipe s.other).msgsRead ≤ (x.pipe s).msgsWritten := by
  rw [h.read, h.written]
  exact (hx.lanes s).obtained_of_written.sublist.countP_le

/-- The queue that is fed holds what is written and not read. -/
theorem Sound.messages_fed (h : Sound x) (ht : Tallied x) {q : QueueId}
    (hq : (x.pipe s).outbound = some q) :
    (x.view q).messages + (x.pipe s.other).msgsRead = (x.pipe s).msgsWritten := by
  obtain ⟨g, rfl, -, hflow⟩ := h.flows_of_outbound hq
  have hbooks : x.written s = x.obtained s.other ++ (x.view (.inbound s.other.id g)).data :=
    hflow.books
  rw [ht.written, ht.read, hbooks, messages_append, Segments.messages_data, Nat.add_comm]

theorem Tallied.bounded_react (h : Tallied x) (hd : x.due s = st.taken ++ left)
    (hr : Reacts (x.pipe s) x.view st r) (hw : 0 < r.pipe.hwm) :
    r.pipe.msgsWritten ≤ r.pipe.peersMsgsRead + r.pipe.hwm := by
  rw [hr.hwm] at hw ⊢
  have hb := h.bounded s hw
  cases hr.counts with
  | wrote hf ho hs hn hq he =>
    subst he
    have := Pipe.lt_of_not_isFull hn hw
    dsimp only
    split <;> omega
  | read hf hm hi hv he =>
    subst he
    exact hb
  | told hp ha hc hv =>
    have ht := h.reported s
    rw [hd] at ht
    have := ht.take.1
    rw [hp]
    dsimp only
    omega
  | neither hc =>
    rw [hc.written, hc.peers]
    exact hb

/-- The counter of the reports that arrive and the count that is reported next, after a reaction. -/
theorem Tallied.reported_react (h : Tallied x) (hd : x.due s = st.taken ++ left)
    (hr : Reacts (x.pipe s) x.view st r) :
    Reported (x.pipe s.other).lwm r.pipe.peersMsgsRead (x.pipe s.other).msgsRead (reports left) ∧
      Reported r.pipe.lwm (x.pipe s.other).peersMsgsRead r.pipe.msgsRead
        (reports (x.due s.other ++ r.posted)) := by
  have hin := h.reported s
  have hout := h.reported s.other
  rw [Side.other_other] at hout
  rw [reports_append]
  refine ⟨?_, hr.reported hout⟩
  rw [hd, reports_append] at hin
  cases hr.counts with
  | wrote _ _ _ _ _ he | read _ _ _ _ he =>
    subst he
    exact hin
  | told hp =>
    rw [hp]
    exact hin.take.2
  | neither hc =>
    rw [hc.taken, List.nil_append] at hin
    rw [hc.peers]
    exact hin

/-- The counters of the end that reacted, beside the frames it wrote and read. -/
theorem Tallied.counters_react (h : Tallied x) (hx : Sound x)
    (hr : Reacts (x.pipe s) x.view st r) :
    r.pipe.msgsWritten = messages (st.sent (x.written s) r) ∧
      r.pipe.msgsRead = messages (x.obtained s ++ st.received r) := by
  refine ⟨?_, by rw [hr.msgsRead_eq, h.read, messages_append]⟩
  cases hr.counts with
  | wrote hf ho hs hn hq he =>
    subst he
    rw [Stimulus.sent, List.rdrop_zero, Call.accepted, messages_append, messages_singleton hf,
      ← h.written]
  | read hf hm hi hv he =>
    subst he
    rw [sent_call rfl, List.rdrop_zero]
    exact h.written s
  | told hp ha hc hv =>
    rw [hp]
    exact h.written s
  | neither hc =>
    rw [hx.messages_sent hc, hc.written]
    exact h.written s

/-- **A reaction keeps the books.** -/
theorem Tallied.react (h : Tallied x) (hx : Sound x) (hd : x.due s = st.taken ++ left)
    (hr : Reacts (x.pipe s) x.view st r) : Tallied (x.after s st r left) := by
  obtain ⟨hw, hrd⟩ := h.counters_react hx hr
  obtain ⟨hin, hout⟩ := h.reported_react hd hr
  constructor
  case written =>
    intro s'
    rcases s.eq_or_eq_other s' with rfl | rfl
    · rw [pipe_after_self, written_after_self, hw]
    · rw [pipe_after_other, written_after_other, h.written]
  case read =>
    intro s'
    rcases s.eq_or_eq_other s' with rfl | rfl
    · rw [pipe_after_self, obtained_after_self, hrd]
    · rw [pipe_after_other, obtained_after_other, h.read]
  case reported =>
    intro s'
    rcases s.eq_or_eq_other s' with rfl | rfl
    · rw [pipe_after_self, pipe_after_other, due_after_self]
      exact hin
    · rw [Side.other_other, pipe_after_self, pipe_after_other, due_after_other]
      exact hout
  case bounded =>
    intro s'
    rcases s.eq_or_eq_other s' with rfl | rfl
    · rw [pipe_after_self]
      exact h.bounded_react hd hr
    · rw [pipe_after_other]
      exact h.bounded _
  case cached =>
    intro s'
    rcases s.eq_or_eq_other s' with rfl | rfl
    · rw [pipe_after_self]
      exact hr.cached (h.cached _)
    · rw [pipe_after_other]
      exact h.cached _
  case lwm_le =>
    intro s'
    rcases s.eq_or_eq_other s' with rfl | rfl
    · rw [pipe_after_self, pipe_after_other, hr.hwm]
      exact h.lwm_le _
    · have := h.lwm_le s.other
      rw [Side.other_other] at this ⊢
      rw [pipe_after_self, pipe_after_other, hr.lwm]
      exact this
  case lwm_pos =>
    intro s'
    rcases s.eq_or_eq_other s' with rfl | rfl
    · rw [pipe_after_self, pipe_after_other, hr.hwm]
      exact h.lwm_pos _
    · have := h.lwm_pos s.other
      rw [Side.other_other] at this ⊢
      rw [pipe_after_self, pipe_after_other, hr.lwm]
      exact this

theorem Tallied.equip (h : Tallied x) (s : Side) (sink : Option Sink)
    (identity : Option Identity) : Tallied (x.equip s sink identity) := by
  choose k i hp using x.pipe_equip s sink identity
  constructor
  case written => exact fun s' => by rw [hp]; exact h.written s'
  case read => exact fun s' => by rw [hp]; exact h.read s'
  case bounded => exact fun s' => by rw [hp]; exact h.bounded s'
  case cached => exact fun s' => by rw [hp]; exact h.cached s'
  case reported => exact fun s' => by rw [hp, hp]; exact h.reported s'
  case lwm_le => exact fun s' => by rw [hp, hp]; exact h.lwm_le s'
  case lwm_pos => exact fun s' => by rw [hp, hp]; exact h.lwm_pos s'

end Pair

/-- What the flow control of a fresh pair starts with. -/
structure Link.Unused (l : Link) (s : Side) : Prop where
  outActive : (l.side s).pipe.outActive = true
  msgsRead : (l.side s).pipe.msgsRead = 0
  msgsWritten : (l.side s).pipe.msgsWritten = 0
  peersMsgsRead : (l.side s).pipe.peersMsgsRead = 0
  lwm_le : (l.side s.other).pipe.lwm ≤ (l.side s).pipe.hwm
  lwm_pos : 0 < (l.side s).pipe.hwm → 0 < (l.side s.other).pipe.lwm

theorem Link.unused_of_create {config : Config} {a b : Plan} {l : Link}
    (h : create config a b = .ok l) (s : Side) : Unused l s := by
  obtain ⟨log, rfl⟩ := eq_of_create h
  cases s <;> exact ⟨rfl, rfl, rfl, rfl, lowWatermark_le .., fun h => lowWatermark_pos h _⟩

theorem Pair.tallied_start {l : Link} (h : ∀ s, l.Unused s) :
    Tallied (start fun s => (l.side s).pipe) where
  written s := (h s).msgsWritten
  read s := (h s).msgsRead
  reported s := by
    simp only [start, (h s).peersMsgsRead, (h s.other).msgsRead]
    exact Reported.start _
  bounded s _ := by
    simp only [start, (h s).msgsWritten]
    exact Nat.zero_le _
  cached s _ ho := by
    simp only [start, (h s).outActive] at ho
    cases ho
  lwm_le s := (h s).lwm_le
  lwm_pos s := (h s).lwm_pos

/-- **Every reachable pair keeps its books.** -/
theorem Pair.Reached.tallied {config : Config} {a b : Link.Plan} {x : Pair}
    (h : Reached config a b x) : Tallied x := by
  induction h with
  | fresh h => exact tallied_start (Link.unused_of_create h)
  | step h hs ih =>
    cases hs with
    | react hd hr => exact ih.react h.sound hd hr
    | equip s sink identity => exact ih.equip s sink identity

/-- **Every run is followed by a pair that is sound and keeps its books.** -/
theorem Link.Run.exists_tallied {config : Config} {a b : Link.Plan}
    {may : Link → Link.Step → Prop} {tr : Link.Trace} {l : Link}
    (h : Link.Run config a b may tr l) :
    ∃ x, Pair.Follows tr l x ∧ Pair.Sound x ∧ Pair.Tallied x := by
  obtain ⟨x, hx, hf⟩ := h.exists_follows
  exact ⟨x, hf, hx.sound, hx.tallied⟩

end MessagePipe
