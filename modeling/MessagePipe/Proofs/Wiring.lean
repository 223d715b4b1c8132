import MessagePipe.Proofs.Handshake

/-!
# Which queue an end feeds

At the start each end reads one of the two queues and writes to the other (§4.4 of the
specification), and an end may replace the queue it reads from as often as it likes, each time with
a notice to its peer (`hiccup`). An end feeds one of the inbound queues its peer had so far. Where
it is behind, the notices of the queues that came since are underway to it, in order and without a
gap (`replacements`).

* `Reacts.inbound_cases`: the inbound queue of an end stays, is given up, or is replaced with
  notice, by the queue of the next generation; `Reacts.outbound_cases`: its outbound queue stays, is
  given up, or is the one a notice tells of.
* `Wired`: each end reads from the newest queue of its own and feeds one of its peer's; the notices
  of all newer ones are underway.
* `Wired.react`: every reaction keeps a pair wired. The two end points of the interval move: the
  reader adds a notice at the back, the writer takes one from the front.
* `Wired.of_notice`: a notice that is taken names the queue fed so far and the next one. It is why
  the peer may drain the retired queue through the reading end it is handed: nobody else reads from
  it.

The module knows queues by name alone, and nothing of what they hold; that all of them but the fed
one are empty is in `Proofs/Lane`.

Premise: none. A notice that is lost with a mailbox stays underway, and its queue is never fed
(`Proofs/Severance`).

Out of scope: commands that nobody sent, which may name any queue.
-/

namespace MessagePipe

open Function (update)

/-- Is a command the notice of a replaced queue? -/
def CommandOf.isHiccup {E : Type} : CommandOf E → Bool
  | hiccup .. => true
  | _ => false

/-- The generation a queue's name tells. -/
def QueueId.generation : QueueId → Nat
  | inbound _ g => g
  | loose n => n

/-- The notices of `n` queues of endpoint `id` that were replaced, from generation `g` on. -/
def replacements (id : PipeId) (g n : Nat) : List Command :=
  (List.range' g n).map fun i => .hiccup (.inbound id (i + 1)) (.inbound id i)

theorem replacements_concat (id : PipeId) (g n : Nat) :
    replacements id g (n + 1) =
      replacements id g n ++ [.hiccup (.inbound id (g + n + 1)) (.inbound id (g + n))] := by
  simp [replacements, List.range'_concat]

theorem replacements_eq_cons {id : PipeId} {g n : Nat} {w r : QueueId} {cs : List Command}
    (h : .hiccup w r :: cs = replacements id g n) :
    ∃ m, n = m + 1 ∧ w = .inbound id (g + 1) ∧ r = .inbound id g ∧
      cs = replacements id (g + 1) m := by
  cases n with
  | zero => cases h
  | succ m =>
    rw [replacements, List.range'_succ, List.map_cons] at h
    obtain ⟨h1, h2⟩ := List.cons.inj h
    cases h1
    exact ⟨m, rfl, rfl, rfl, h2⟩

/-! ## What a reaction does to the queue names of an endpoint -/

theorem Action.filter_hiccup (a : Action) : a.commands.filter CommandOf.isHiccup = [] := by
  cases a with
  | deallocate ack => cases ack <;> rfl
  | _ => rfl

theorem Reacts.id {p : Pipe} {v : View} {st : Stimulus} {r : Reaction} (h : Reacts p v st r) :
    r.pipe.id = p.id := by
  cases h <;> rfl

/-- The inbound queue stays, is given up, or is replaced with notice. -/
theorem Reacts.inbound_cases {p : Pipe} {v : View} {st : Stimulus} {r : Reaction}
    (h : Reacts p v st r) :
    ((r.pipe.inbound = p.inbound ∨ r.pipe.inbound = none) ∧ r.pipe.generation = p.generation ∧
        r.posted.filter CommandOf.isHiccup = []) ∨
      ∃ q, p.inbound = some q ∧
        r.pipe.inbound = some (.inbound p.id (p.generation + 1)) ∧
        r.pipe.generation = p.generation + 1 ∧
        r.posted = [.hiccup (.inbound p.id (p.generation + 1)) q] := by
  cases h with
  | flush => exact .inl ⟨.inl rfl, rfl, Segments.filter_wake rfl _⟩
  | lookDelimiter => exact .inl ⟨.inl rfl, rfl, Action.filter_hiccup _⟩
  | readFrame => exact .inl ⟨.inl rfl, rfl, Pipe.filter_report (fun _ => rfl) ..⟩
  | terminateReleased => exact .inl ⟨.inl rfl, rfl, Action.filter_hiccup _⟩
  | terminate =>
    refine .inl ⟨.inl rfl, rfl, ?_⟩
    rw [List.filter_append, Action.filter_hiccup, Segments.filter_wake rfl, List.append_nil]
  | terminateFault => exact .inl ⟨.inl rfl, rfl, Action.filter_hiccup _⟩
  | hiccup hs hi => exact .inr ⟨_, hi, rfl, rfl, rfl⟩
  | pipeTerm => exact .inl ⟨.inl rfl, rfl, Action.filter_hiccup _⟩
  | pipeTermAck => exact .inl ⟨.inr rfl, rfl, Action.filter_hiccup _⟩
  | hiccupMoved => exact .inl ⟨.inl rfl, rfl, Segments.filter_wake rfl _⟩
  | _ => exact .inl ⟨.inl rfl, rfl, rfl⟩

/-- The outbound queue stays, is given up, or is the one a notice tells of. -/
theorem Reacts.outbound_cases {p : Pipe} {v : View} {st : Stimulus} {r : Reaction}
    (h : Reacts p v st r) :
    r.pipe.outbound = none ∨
      (r.pipe.outbound = p.outbound ∧ st.taken.filter CommandOf.isHiccup = []) ∨
      ∃ w q old, st = .command (.hiccup w q) ∧ p.outbound = some old ∧
        r.pipe.outbound = some w := by
  have hsig : ∀ s (a : Action), (p.signalled s a).outbound = none ∨
      (p.signalled s a).outbound = p.outbound := fun s a => by
    unfold Pipe.signalled
    cases a.releases with
    | true => exact .inl rfl
    | false => exact .inr rfl
  cases h with
  | @lookDelimiter _ _ _ _ _ s a => exact (hsig s a).imp_right fun h => .inl ⟨h, rfl⟩
  | @terminateReleased _ s a => exact (hsig s a).imp_right fun h => .inl ⟨h, rfl⟩
  | @terminate _ s a => exact (hsig s a).imp_right fun h => .inl ⟨h, rfl⟩
  | @terminateFault _ s a => exact (hsig s a).imp_right fun h => .inl ⟨h, rfl⟩
  | @pipeTerm s a => exact (hsig s a).imp_right fun h => .inl ⟨h, rfl⟩
  | @pipeTermAck _ s a => exact (hsig s a).imp_right fun h => .inl ⟨h, rfl⟩
  | hiccupReleased hq => exact .inl hq
  | hiccupMoved hs hq => exact .inr (.inr ⟨_, _, _, rfl, hq, rfl⟩)
  | hiccupUnflushed hs hq => exact .inr (.inr ⟨_, _, _, rfl, hq, rfl⟩)
  | _ => exact .inr (.inl ⟨rfl, rfl⟩)

/-! ## Pairs that are wired -/

namespace Pair

/-- Each end reads from the newest queue of its own and feeds one of its peer's; the notices of all
newer ones are underway. -/
structure Wired (x : Pair) : Prop where
  id : ∀ s, (x.pipe s).id = s.id
  inbound : ∀ s q, (x.pipe s).inbound = some q → q = .inbound s.id (x.pipe s).generation
  outbound : ∀ s q, (x.pipe s).outbound = some q →
    ∃ g n, q = .inbound s.other.id g ∧ (x.pipe s.other).generation = g + n ∧
      (x.due s).filter CommandOf.isHiccup = replacements s.other.id g n

variable {x : Pair} {s : Side}

/-- **A notice that is taken names the queue fed so far and the next one.** -/
theorem Wired.of_notice (h : Wired x) {w r q : QueueId} {left : List Command}
    (hd : x.due s = .hiccup w r :: left) (hq : (x.pipe s).outbound = some q) :
    ∃ g n, q = .inbound s.other.id g ∧ w = .inbound s.other.id (g + 1) ∧
      r = .inbound s.other.id g ∧ (x.pipe s.other).generation = g + 1 + n ∧
      left.filter CommandOf.isHiccup = replacements s.other.id (g + 1) n := by
  obtain ⟨g, n, hq, hg, hf⟩ := h.outbound s q hq
  rw [hd] at hf
  obtain ⟨m, rfl, hw, hr, hl⟩ := replacements_eq_cons hf
  exact ⟨g, m, hq, hw, hr, by omega, hl⟩

theorem Wired.react {st : Stimulus} {r : Reaction} {left : List Command} (h : Wired x)
    (hd : x.due s = st.taken ++ left) (hr : Reacts (x.pipe s) x.view st r) :
    Wired (x.after s st r left) := by
  have hid := h.id s
  constructor
  case id =>
    intro s'
    rcases s.eq_or_eq_other s' with rfl | rfl
    · rw [pipe_after_self, hr.id, hid]
    · rw [pipe_after_other, h.id]
  case inbound =>
    intro s' q hq
    rcases s.eq_or_eq_other s' with rfl | rfl
    · rw [pipe_after_self] at hq ⊢
      rcases hr.inbound_cases with ⟨hi | hi, hg, -⟩ | ⟨q', -, hi, hg, -⟩
      · rw [hg]
        exact h.inbound _ q (hi ▸ hq)
      · rw [hi] at hq
        cases hq
      · rw [hi, hid] at hq
        rw [hg]
        exact (Option.some.inj hq).symm
    · rw [pipe_after_other] at hq ⊢
      exact h.inbound _ q hq
  case outbound =>
    intro s' q hq
    rcases s.eq_or_eq_other s' with rfl | rfl
    · -- The end that reacted feeds what it fed, or the queue of the notice it took.
      rw [pipe_after_self] at hq
      rw [pipe_after_other, due_after_self]
      rcases hr.outbound_cases with ho | ⟨ho, ht⟩ | ⟨w, q', old, rfl, hold, ho⟩
      · rw [ho] at hq
        cases hq
      · obtain ⟨g, n, hg⟩ := h.outbound _ q (ho ▸ hq)
        rw [hd, List.filter_append, ht, List.nil_append] at hg
        exact ⟨g, n, hg⟩
      · obtain ⟨g, n, -, hw, -, hg, hl⟩ := h.of_notice hd hold
        rw [ho] at hq
        exact ⟨g + 1, n, (Option.some.inj hq).symm.trans hw, hg, hl⟩
    · -- The peer feeds what it fed; a new queue of the end that reacted comes with a notice.
      rw [pipe_after_other] at hq
      obtain ⟨g, n, hq, hg, hf⟩ := h.outbound _ q hq
      rw [Side.other_other] at hq hg hf ⊢
      rw [pipe_after_self, due_after_other, List.filter_append, hf]
      rcases hr.inbound_cases with ⟨-, hgen, hp⟩ | ⟨q', hi, -, hgen, hp⟩
      · rw [hgen, hp, List.append_nil]
        exact ⟨g, n, hq, hg, rfl⟩
      · rw [hgen, hp, hid, hg, h.inbound _ q' hi, hg]
        exact ⟨g, n + 1, hq, rfl, (replacements_concat ..).symm⟩

theorem Wired.equip (h : Wired x) (s : Side) (sink : Option Sink) (identity : Option Identity) :
    Wired (x.equip s sink identity) := by
  refine ⟨fun s' => ?_, fun s' q hq => ?_, fun s' q hq => ?_⟩
  · obtain ⟨k, i, he⟩ := x.pipe_equip s sink identity s'
    rw [he]
    exact h.id s'
  · obtain ⟨k, i, he⟩ := x.pipe_equip s sink identity s'
    rw [he] at hq ⊢
    exact h.inbound s' q hq
  · obtain ⟨k, i, he⟩ := x.pipe_equip s sink identity s'
    obtain ⟨k', i', he'⟩ := x.pipe_equip s sink identity s'.other
    rw [he] at hq
    rw [he']
    exact h.outbound s' q hq

theorem wired_start {pipe : Side → Pipe} (h : ∀ s, Link.Fresh (pipe s) s) :
    Wired (start pipe) := by
  refine ⟨fun s => (h s).id, fun s q hq => ?_, fun s q hq => ?_⟩
  · rw [show (start pipe).pipe = pipe from rfl, (h s).inbound] at hq
    rw [show (start pipe).pipe = pipe from rfl, (h s).generation]
    exact (Option.some.inj hq).symm
  · rw [show (start pipe).pipe = pipe from rfl, (h s).outbound] at hq
    rw [show (start pipe).pipe = pipe from rfl, (h s.other).generation]
    exact ⟨0, 0, (Option.some.inj hq).symm, rfl, rfl⟩

end Pair

end MessagePipe
