import MessagePipe.Proofs.Tally

/-!
# Progress is reported at the multiples of the low watermark

A writer goes on by what its reader reports: a report that is left out may stop it for good, and one
too many takes its bound away. The reader sends `activate-write(messages-read)` whenever another low
watermark of messages is read (§4.2 and §8 of the specification), and never otherwise. This does not
hang on anybody else: it is so whatever the two owners do, whatever commands either end is handed,
and whatever its queue comes to hold. Frames that do not end a message, the delimiter, and what is
dropped as the end is taken down are not counted.

* `Reporting`: an end has counted the messages among the frames its owner was handed, and reported
  the multiples of its low watermark up to there.
* `Reporting.react`: no reaction of an end leaves a report out or makes one that is not due. Its
  work is done by `Reacts.reported` and `Reacts.msgsRead_eq` in `Proofs/Tally`.
* `Link.Incident`: something happens to a pair, by the doing of its owners or not: a step, a command
  from nowhere, or queues that come to hold anything. `Link.Chronicle` is what happened, with what
  was reported.
* `Link.befall_reporting`, `Link.chronicle_reporting`: whatever happens, however much, an end goes
  on to report what is due.
* `Link.progress_reported`: what an end of a fresh pair reported at any time. Where the low
  watermark is zero, it reports nothing.

There is no premise but that the pair was made.

Out of scope: counters as 64-bit words, and what the writer makes of a report (`Proofs/Unblocking`,
`Proofs/WriteWakeUp`).
-/

namespace MessagePipe

/-- Reports that begin with the first one are of all multiples of the low watermark, of which there
is none where nothing is reported. -/
theorem Reported.eq_multiples {lwm read : Nat} {due : List Nat} (h : Reported lwm 0 read due) :
    due = (List.range (read / lwm)).map fun k => (k + 1) * lwm := by
  obtain ⟨k, n, hk, rfl, hr⟩ := h
  obtain rfl : k = 0 := by
    rcases Nat.eq_zero_or_pos lwm with rfl | hl
    · rw [Nat.div_zero] at hr
      omega
    · exact (Nat.mul_eq_zero.1 hk.symm).resolve_right hl.ne'
  rw [hr, Nat.zero_add, Nat.zero_add, List.range'_eq_map_range, List.map_map]
  exact List.map_congr_left fun i _ => by rw [Function.comp_apply, Nat.add_comm]

/-- Where no frame is a delimiter, every one without the flag ends a message. -/
theorem messages_eq_countP {fs : List Frame} (h : ∀ f ∈ fs, f.isDelimiter = false) :
    messages fs = fs.countP fun f => !f.hasMore := by
  refine List.countP_congr fun f hf => ?_
  rw [Frame.closes, h f hf, Bool.not_false, Bool.and_true]

/-- An end that reports every `n` messages, read `frames` and reported `counts`: it counted the
messages among the frames, and reported the multiples up to there. -/
structure Reporting (p : Pipe) (n : Nat) (frames : List Frame) (counts : List Nat) : Prop where
  lwm : p.lwm = n
  msgsRead : p.msgsRead = messages frames
  data : ∀ f ∈ frames, f.isDelimiter = false
  reported : Reported n 0 p.msgsRead counts

/-- **Every reaction reports what is due.** -/
theorem Reporting.react {p : Pipe} {v : View} {st : Stimulus} {r : Reaction} {n : Nat}
    {frames : List Frame} {counts : List Nat} (h : Reporting p n frames counts)
    (hr : Reacts p v st r) :
    Reporting r.pipe n (frames ++ st.received r) (counts ++ reports r.posted) := by
  have hlwm : r.pipe.lwm = n := hr.lwm.trans h.lwm
  refine ⟨hlwm, ?_, fun f hf => ?_, ?_⟩
  · rw [hr.msgsRead_eq, h.msgsRead, messages_append]
  · rcases List.mem_append.1 hf with hf | hf
    · exact h.data f hf
    · exact hr.isDelimiter_of_received hf
  · rw [← hlwm]
    exact hr.reported (h.lwm.symm ▸ h.reported)

namespace Link

/-! ## Anything that can happen to a pair -/

/-- Something happens to a pair, by the doing of its owners or not. -/
inductive Incident where
  /-- An owner takes a step. -/
  | step (step : Step)
  /-- The pipe of a side is handed a command, whoever made it up. -/
  | process (side : Side) (command : Command)
  /-- The queues come to hold anything. -/
  | tamper (queues : Queues)

/-- Incidents with what they reported, in order. -/
abbrev Chronicle := List (Incident × Report)

/-- One thing happens. -/
def befall (l : Link) : Incident → Report × Link
  | .step st => l.step st
  | .process s c => l.process s c
  | .tamper queues => ({}, { l with queues })

/-- One thing happens after the other. -/
def chronicle (l : Link) : List Incident → Chronicle × Link
  | [] => ([], l)
  | i :: is =>
    let (report, l) := l.befall i
    let (chronicle, l) := l.chronicle is
    ((i, report) :: chronicle, l)

/-- The frames side `s` read in one incident. -/
def Incident.received (s : Side) : Incident × Report → List Frame
  | (.step st, r) => Step.received s (st, r)
  | _ => []

/-- The commands side `s` sent in one incident. -/
def Incident.posted (s : Side) : Incident × Report → List Command
  | (.step st, r) => Step.posted s (st, r)
  | (.process s' _, r) => if s' = s then Effect.commands r.effects else []
  | (.tamper _, _) => []

namespace Chronicle

/-- The frames side `s` read, in order. -/
def received (s : Side) (ch : Chronicle) : List Frame :=
  ch.flatMap (Incident.received s)

/-- The commands side `s` sent, in order. -/
def posted (s : Side) (ch : Chronicle) : List Command :=
  ch.flatMap (Incident.posted s)

end Chronicle

theorem chronicle_cons (l : Link) (i : Incident) (is : List Incident) :
    l.chronicle (i :: is) =
      ((i, (l.befall i).1) :: ((l.befall i).2.chronicle is).1, ((l.befall i).2.chronicle is).2) :=
  rfl

variable {l : Link} {s : Side} {n : Nat} {frames : List Frame} {counts : List Nat}

/-- An incident that the end of a side has no part in, or that sets its sink or its identity. -/
structure Incident.Aside (l : Link) (s : Side) (i : Incident) (rep : Report) (l' : Link) :
    Prop where
  pipe : ∃ k id, (l'.side s).pipe = { (l.side s).pipe with sink := k, identity := id }
  received : Incident.received s (i, rep) = []
  posted : Incident.posted s (i, rep) = []

/-- **Whatever happens is a reaction of the end of a side, or leaves it aside.** -/
theorem befall_cases (l : Link) (s : Side) (i : Incident) :
    (∃ st r, Turned l s st r (l.befall i).1 (l.befall i).2 ∧
        Incident.received s (i, (l.befall i).1) = st.received r ∧
        Incident.posted s (i, (l.befall i).1) = r.posted) ∨
      i.Aside l s (l.befall i).1 (l.befall i).2 := by
  cases i with
  | step step =>
    rcases l.step_cases_at step s with ⟨st, r, hst, ht⟩ | ha
    · exact .inl ⟨st, r, ht.toTurned, ht.received hst,
        (if_pos (side_of_stimulus hst)).trans ht.posted⟩
    · exact .inr ⟨ha.pipe, Step.received_of_quiet ha.quiet _, ha.posted⟩
  | process s' c =>
    obtain ⟨r, ht⟩ := l.turned_process s' c
    rcases s'.eq_or_eq_other s with rfl | rfl
    · exact .inl ⟨_, r, ht, rfl, (if_pos rfl).trans ht.posted⟩
    · exact .inr ⟨⟨_, _, ht.peer⟩, rfl, if_neg s'.other_ne.symm⟩
  | tamper queues =>
    have hside : (l.befall (.tamper queues)).2.side s = l.side s := by cases s <;> rfl
    exact .inr ⟨⟨_, _, congrArg Endpoint.pipe hside⟩, rfl, rfl⟩

/-- **Whatever happens, an end reports what is due.** -/
theorem befall_reporting (h : Reporting (l.side s).pipe n frames counts) (i : Incident) :
    Reporting ((l.befall i).2.side s).pipe n
      (frames ++ Incident.received s (i, (l.befall i).1))
      (counts ++ reports (Incident.posted s (i, (l.befall i).1))) := by
  rcases l.befall_cases s i with ⟨st, r, ht, hr, hp⟩ | ha
  · rw [hr, hp, ht.own]
    exact h.react ht.reacts
  · obtain ⟨k, id, hp⟩ := ha.pipe
    rw [ha.received, ha.posted, hp, List.append_nil, reports_nil, List.append_nil]
    exact ⟨h.lwm, h.msgsRead, h.data, h.reported⟩

/-- **Nor does it cease to, however much happens.** -/
theorem chronicle_reporting (h : Reporting (l.side s).pipe n frames counts)
    (is : List Incident) :
    Reporting ((l.chronicle is).2.side s).pipe n (frames ++ (l.chronicle is).1.received s)
      (counts ++ reports ((l.chronicle is).1.posted s)) := by
  induction is generalizing l frames counts with
  | nil =>
    rw [chronicle, Chronicle.received, Chronicle.posted, List.flatMap_nil, List.flatMap_nil,
      reports_nil, List.append_nil, List.append_nil]
    exact h
  | cons i is ih =>
    rw [chronicle_cons, Chronicle.received, Chronicle.posted, List.flatMap_cons,
      List.flatMap_cons, reports_append, ← List.append_assoc, ← List.append_assoc]
    exact ih (befall_reporting h i)

theorem reporting_of_create {config : Config} {a b : Plan} (h : create config a b = .ok l)
    (s : Side) :
    Reporting (l.side s).pipe (lowWatermark (planOf a b s).options.hwm config.maxDelta).toNat
      [] [] := by
  obtain ⟨log, rfl⟩ := eq_of_create h
  cases s <;> exact ⟨rfl, rfl, nofun, .start _⟩

/-- **Progress is reported at the multiples of the low watermark.** Whatever happens to a fresh
pair, an end of it has counted the frames without the flag that it handed to its owner, who is
handed no delimiter; and the counts it has reported are the multiples of its low watermark up to
there, in order. With a low watermark of zero it has reported nothing. -/
theorem progress_reported {config : Config} {a b : Plan} (h : create config a b = .ok l)
    (s : Side) (is : List Incident) :
    let ch := (l.chronicle is).1
    let p := ((l.chronicle is).2.side s).pipe
    let lwm := (lowWatermark (planOf a b s).options.hwm config.maxDelta).toNat
    let read := (ch.received s).countP fun f => !f.hasMore
    p.lwm = lwm ∧ p.msgsRead = read ∧ (∀ f ∈ ch.received s, f.isDelimiter = false) ∧
    (0 < lwm → reports (ch.posted s) = (List.range (read / lwm)).map fun k => (k + 1) * lwm) ∧
    (lwm = 0 → reports (ch.posted s) = []) := by
  intro ch p lwm read
  obtain ⟨hlwm, hcount, hdata, hreported⟩ := chronicle_reporting (reporting_of_create h s) is
  have hread : p.msgsRead = read := hcount.trans (messages_eq_countP hdata)
  have hall : reports (ch.posted s) = (List.range (read / lwm)).map fun k => (k + 1) * lwm := by
    rw [← hread]
    exact hreported.eq_multiples
  refine ⟨hlwm, hread, hdata, fun _ => hall, fun hzero => ?_⟩
  rw [hall, hzero, Nat.div_zero]
  rfl

/-- A reader replaces its queue in the middle of a message, goes on reading after a request to
terminate that was never made, and is taken down with a message unread. -/
theorem progress_reported_until_taken_down :
    ∃ l : Link, create {} { options := {} } { options := { hwm := 4 } } = .ok l ∧
      let f : Frame := .ofBytes .empty
      let is : List Incident :=
        [.step (.call .a (.write (f.setMore true))), .step (.call .a (.write f)),
          .step (.call .a (.write f)), .step (.call .a (.write f)), .step (.call .a .flush),
          .step (.call .b .read), .step (.call .b .hiccup), .step (.deliver .a),
          .step (.call .b .read), .step (.call .b .read), .process .b .pipeTerm,
          .step (.call .b .read), .step (.deliver .a), .step (.call .a (.write f)),
          .step (.call .a (.write f)), .step (.call .a .flush), .step (.call .b .read),
          .step (.call .b (.terminate false)), .process .b .pipeTermAck]
      let ch := (l.chronicle is).1
      let p := ((l.chronicle is).2.side .b).pipe
      p.isClosed = true ∧ p.lwm = 2 ∧ p.msgsRead = 4 ∧ reports (ch.posted .b) = [2, 4] := by
  have hcreate : create {} { options := {} } { options := { hwm := 4 } } = .ok _ := rfl
  refine ⟨_, hcreate, ?_⟩
  intro f is ch p
  obtain ⟨hlwm, hcount, -, hreports, -⟩ := progress_reported hcreate .b is
  exact ⟨by decide, hlwm.trans (by decide), hcount.trans (by decide),
    (hreports (by decide)).trans (by decide)⟩

end Link

end MessagePipe
