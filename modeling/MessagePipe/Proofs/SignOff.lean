import MessagePipe.Proofs.Convergence
import MessagePipe.Proofs.Exposure

/-!
# An end signs off once, and nothing follows

An end asks to terminate at most once, acknowledges at most once, and sends nothing after its
acknowledgment; it notifies its owner of its end at most once, and of nothing after that (§5 and §6
of the specification: exactly one term and one term-ack per side, and `terminated` fires exactly
once per pipe). None of this rests on the peer: the commands an end is handed may be forged,
repeated and out of order. §5 has *exactly* one request of either side; the end that is asked first
never sends one, so what holds of every end is *at most*.

* `LastWord`: once it is said, an item is the last one of a list and nowhere before. It is the shape
  of all three results, and `LastWord.append` is how it is kept.
* `State.asks_on`, `State.acknowledges_on`, `State.silent_on`: what a signal demands, read off the
  table of the handshake.
* `Reacts.posts`: what a reaction sends is what a signal of the handshake demands, or has no part in
  the handshake.
* `Orderly.react`: what an end sent and notified stays in order with every reaction.
* `Link.signs_off_once`: so it is in order whatever happens to the end (`Proofs/Exposure`), and the
  end is notified in the very step in which it is taken down.
* `Link.signs_off_once_under_forgery`: an end that is handed acknowledgments and requests that
  nobody sent.

Premises: a sink, for what it hears, and the peer's mailbox open, for what arrives there.

Out of scope: that an end gets to sign off at all, which rests on the peer (`Proofs/Convergence`).
-/

namespace MessagePipe

/-! ## Lists with a last word -/

/-- Once it is `said`, `x` is the last item of a list and nowhere before; until then it is not in
the list. -/
inductive LastWord {α : Type} (x : α) : Bool → List α → Prop where
  | unsaid {xs : List α} (h : x ∉ xs) : LastWord x false xs
  | said {xs : List α} (h : x ∉ xs) : LastWord x true (xs ++ [x])

namespace LastWord

variable {α : Type} {x : α} {said said' : Bool} {xs ys : List α}

theorem of_unsaid (hs : said = false) (h : x ∉ xs) : LastWord x said xs :=
  hs ▸ .unsaid h

/-- More may follow, the last word at its end, as long as it was not said. -/
theorem append (h : LastWord x said xs) (hu : said = false → LastWord x said' ys)
    (hs : said = true → said' = true ∧ ys = []) : LastWord x said' (xs ++ ys) := by
  cases h with
  | unsaid h =>
    cases hu rfl with
    | unsaid hy => exact .unsaid (List.not_mem_append h hy)
    | said hy =>
      rw [← List.append_assoc]
      exact .said (List.not_mem_append h hy)
  | said h =>
    obtain ⟨rfl, rfl⟩ := hs rfl
    rw [List.append_nil]
    exact .said h

theorem filter {k : α → Bool} (h : LastWord x said xs) (hk : k x = true) :
    LastWord x said (xs.filter k) := by
  cases h with
  | unsaid h => exact .unsaid fun hm => h (List.mem_filter.1 hm).1
  | said h =>
    rw [List.filter_append, List.filter_cons_of_pos hk, List.filter_nil]
    exact .said fun hm => h (List.mem_filter.1 hm).1

theorem mem_iff (h : LastWord x said xs) : x ∈ xs ↔ said = true := by
  cases h with
  | unsaid h => simp [h]
  | said h => simp

theorem count_le [DecidableEq α] (h : LastWord x said xs) : xs.count x ≤ 1 := by
  cases h with
  | unsaid h => simp [List.count_eq_zero_of_not_mem h]
  | said h => simp [List.count_eq_zero_of_not_mem h]

/-- Nothing follows the last word. -/
theorem eq_nil_of_append (h : LastWord x said (xs ++ x :: ys)) : ys = [] := by
  generalize hz : xs ++ x :: ys = zs at h
  cases h with
  | unsaid h => exact absurd (hz ▸ by simp) h
  | @said zs h =>
    rcases List.eq_nil_or_concat' ys with rfl | ⟨ys, y, rfl⟩
    · rfl
    · rw [← List.cons_append, ← List.append_assoc] at hz
      obtain ⟨rfl, -⟩ := List.append_inj' hz rfl
      exact absurd (by simp) h

end LastWord

/-! ## What the handshake lets an end say -/

/-- May an end in this state still ask to terminate? -/
def State.mayAsk : State → Bool
  | active | delimited => true
  | _ => false

/-- An end asks when it leaves the states in which it may, or never. -/
theorem State.asks_on {s s' : State} {sg : Signal} {a : Action} (h : s.on sg = some (s', a)) :
    a.commands.count .pipeTerm + (if s'.mayAsk then 1 else 0) ≤ if s.mayAsk then 1 else 0 := by
  cases move_of_on h <;> decide

/-- An end acknowledges as it gives the outbound queue up. -/
theorem State.acknowledges_on {s s' : State} {sg : Signal} {a : Action}
    (h : s.on sg = some (s', a)) (hs : s.hasReleased = false) :
    LastWord .pipeTermAck s'.hasReleased a.commands := by
  cases move_of_on h with
  | drain | askNotToWait | comply | complyDelimited | cross | ackFirst =>
    exact .said List.not_mem_nil
  | delimit | ask | askDelimited | askToWait | askAgain | wait => exact .unsaid (by decide)
  | askAfterAck | askAfterBoth | ackAfterAck | ackAfterBoth => cases hs

/-- An end that gave its outbound queue up has nothing more to say. -/
theorem State.silent_on {s s' : State} {sg : Signal} {a : Action} (h : s.on sg = some (s', a))
    (hs : s.hasReleased = true) : a.commands = [] := by
  cases move_of_on h with
  | askAfterAck | askAfterBoth | ackAfterAck | ackAfterBoth => rfl
  | _ => cases hs

theorem State.unreadable_of_released {s : State} (h : s.hasReleased = true) :
    s.isReadable = false := by
  cases s with
  | terminating | doubleTerminated => rfl
  | _ => cases h

section Reacts

variable {p : Pipe} {v : View} {st : Stimulus} {r : Reaction}

/-- **What is sent is what a signal demands, or has no part in the handshake.** Something else may
follow a demand only of an end that keeps its outbound queue. -/
theorem Reacts.posts (h : Reacts p v st r) :
    (∃ sg s a more, p.state.on sg = some (s, a) ∧ r.pipe.state = s ∧
        r.posted = a.commands ++ more ∧ more.filter CommandOf.isSignal = [] ∧
        (a.releases = true → more = [])) ∨
      r.pipe.state = p.state ∧ r.posted.filter CommandOf.isSignal = [] := by
  cases h with
  | lookDelimiter hc hm hi hv hf hon =>
    exact .inl ⟨_, _, _, [], hon, rfl, (List.append_nil _).symm, rfl, fun _ => rfl⟩
  | terminateReleased hon ha hq =>
    exact .inl ⟨_, _, _, [], hon, rfl, (List.append_nil _).symm, rfl, fun _ => rfl⟩
  | terminate hon ha hq hall =>
    refine .inl ⟨_, _, _, _, hon, rfl, rfl, Segments.filter_wake rfl _, fun hr => ?_⟩
    rw [Pipe.signalled, if_pos hr] at hq
    cases hq
  | terminateFault hon ha hq hall =>
    exact .inl ⟨_, _, _, [], hon, rfl, (List.append_nil _).symm, rfl, fun _ => rfl⟩
  | pipeTerm hon =>
    exact .inl ⟨_, _, _, [], hon, rfl, (List.append_nil _).symm, rfl, fun _ => rfl⟩
  | pipeTermAck hi hon =>
    exact .inl ⟨_, _, _, [], hon, rfl, (List.append_nil _).symm, rfl, fun _ => rfl⟩
  | flush => exact .inr ⟨rfl, Segments.filter_wake rfl _⟩
  | hiccupMoved => exact .inr ⟨rfl, Segments.filter_wake rfl _⟩
  | readFrame => exact .inr ⟨rfl, Pipe.filter_report (fun _ => rfl) ..⟩
  | _ => exact .inr ⟨rfl, rfl⟩

/-- Asking to terminate uses up the leave to do so. -/
theorem Reacts.asks (h : Reacts p v st r) :
    r.posted.count .pipeTerm + (if r.pipe.state.mayAsk then 1 else 0) ≤
      if p.state.mayAsk then 1 else 0 := by
  have hz : ∀ {cs : List Command}, cs.filter CommandOf.isSignal = [] → cs.count .pipeTerm = 0 :=
    fun hcs => List.count_eq_zero_of_not_mem (not_mem_of_filter_isSignal hcs rfl)
  rcases h.posts with ⟨sg, s, a, more, hon, rfl, hp, hm, -⟩ | ⟨hs, hp⟩
  · rw [hp, List.count_append, hz hm, Nat.add_zero]
    exact State.asks_on hon
  · rw [hz hp, hs, Nat.zero_add]

/-- Nothing is sent behind an acknowledgment in the reaction that gives it. -/
theorem Reacts.acknowledges (h : Reacts p v st r) (hs : p.state.hasReleased = false) :
    LastWord .pipeTermAck r.pipe.state.hasReleased r.posted := by
  rcases h.posts with ⟨sg, s, a, more, hon, rfl, hp, hm, hr⟩ | ⟨hst, hp⟩
  · rw [hp]
    refine (State.acknowledges_on hon hs).append
      (fun ho => .of_unsaid ho (not_mem_of_filter_isSignal hm rfl)) fun ho => ⟨ho, hr ?_⟩
    rwa [State.hasReleased_on hon, hs, Bool.false_or] at ho
  · exact .of_unsaid (hst ▸ hs) (not_mem_of_filter_isSignal hp rfl)

theorem Reacts.released_of_released (h : Reacts p v st r) (hs : p.state.hasReleased = true) :
    r.pipe.state.hasReleased = true := by
  rcases h.state_cases with he | ⟨sg, s, a, hon, rfl⟩
  · rw [he, hs]
  · rw [State.hasReleased_on hon, hs, Bool.true_or]

/-- **An end that gave its outbound queue up sends nothing.** -/
theorem Reacts.posted_of_released (h : Reacts p v st r) (hp : p.Honest)
    (hs : p.state.hasReleased = true) : r.posted = [] := by
  have ho : p.outbound = none := Option.isNone_iff_eq_none.1 (Eq.trans hp hs)
  have hm : p.mayRead = false := by
    rw [Pipe.mayRead, State.unreadable_of_released hs, Bool.and_false]
  -- What else sends feeds a queue, reads a frame or needs the end to be in operation.
  cases h with
  | flush _ hq => cases ho.symm.trans hq
  | lookDelimiter _ hm' => cases hm.symm.trans hm'
  | readFrame hm' => cases hm.symm.trans hm'
  | terminate _ _ hq => cases ho.symm.trans (Pipe.outbound_of_signalled hq)
  | terminateReleased hon => exact State.silent_on hon hs
  | terminateFault hon => exact State.silent_on hon hs
  | hiccup ha =>
    rw [ha] at hs
    cases hs
  | pipeTerm hon => exact State.silent_on hon hs
  | pipeTermAck _ hon => exact State.silent_on hon hs
  | hiccupMoved _ hq => cases ho.symm.trans hq
  | _ => rfl

/-- An end that was taken down notifies of nothing. -/
theorem Reacts.events_of_closed (h : Reacts p v st r) (hp : p.Honest)
    (hs : p.state.hasReleased = true) (hc : p.isClosed = true) : r.events = [] := by
  cases h with
  | pipeTermAck hi =>
    rw [Pipe.isClosed, hi] at hc
    cases hc
  | activateRead _ hr => cases (State.unreadable_of_released hs).symm.trans hr
  | activateWrite _ ha =>
    rw [ha] at hs
    cases hs
  | hiccupMoved _ hq =>
    rw [Pipe.Honest, hq, hs] at hp
    cases hp
  | _ => rfl

/-- An end notifies its owner of its end as it is taken down, and of nothing after that. -/
theorem Reacts.ends (h : Reacts p v st r) (hc : p.isClosed = false) :
    LastWord .terminated r.pipe.isClosed r.events := by
  cases h with
  | pipeTermAck => exact .said List.not_mem_nil
  | hiccup => exact .unsaid List.not_mem_nil
  | activateRead => exact .of_unsaid hc (by simp)
  | activateWrite => exact .of_unsaid hc (by simp)
  | hiccupMoved =>
    refine .of_unsaid hc ?_
    dsimp only
    split <;> decide
  | _ => exact .of_unsaid hc List.not_mem_nil

theorem Reacts.closed_of_closed (h : Reacts p v st r) (hc : p.isClosed = true) :
    r.pipe.isClosed = true := by
  cases h with
  | pipeTermAck => rfl
  | hiccup _ hi =>
    rw [Pipe.isClosed, hi] at hc
    cases hc
  | _ => exact hc

/-- An end that is taken down gave its outbound queue up. -/
theorem Reacts.released_of_closed (h : Reacts p v st r)
    (hp : p.isClosed = true → p.state.hasReleased = true) (hc : r.pipe.isClosed = true) :
    r.pipe.state.hasReleased = true := by
  have hold (hc : p.isClosed = true) := h.released_of_released (hp hc)
  -- An acknowledgment leads to the states without a queue, and a replaced queue is not closed.
  cases h with
  | @pipeTermAck q s a hi hon => cases he : p.state <;> rw [he] at hon <;> cases hon <;> rfl
  | hiccup => cases hc
  | _ => exact hold hc

end Reacts

/-! ## Ends in order -/

/-- What an end sent and notified so far is in order: it asked once at most, and its acknowledgment
and its end were the last words of either kind. -/
structure Orderly (p : Pipe) (sent : List Command) (events : List Event) : Prop where
  honest : p.Honest
  released : p.isClosed = true → p.state.hasReleased = true
  asked : sent.count .pipeTerm + (if p.state.mayAsk then 1 else 0) ≤ 1
  acknowledged : LastWord .pipeTermAck p.state.hasReleased sent
  ended : LastWord .terminated p.isClosed events

/-- **Every reaction leaves an end in order.** -/
theorem Orderly.react {p : Pipe} {v : View} {st : Stimulus} {r : Reaction} {sent : List Command}
    {events : List Event} (h : Orderly p sent events) (hr : Reacts p v st r) {k : Event → Bool}
    (hk : k .terminated = true) :
    Orderly r.pipe (sent ++ r.posted) (events ++ r.events.filter k) where
  honest := hr.honest h.honest
  released := hr.released_of_closed h.released
  asked := by
    have ha := h.asked
    have := hr.asks
    rw [List.count_append]
    omega
  acknowledged := h.acknowledged.append hr.acknowledges fun hs =>
    ⟨hr.released_of_released hs, hr.posted_of_released h.honest hs⟩
  ended := h.ended.append (fun hc => (hr.ends hc).filter hk) fun hc =>
    ⟨hr.closed_of_closed hc, by rw [hr.events_of_closed h.honest (h.released hc) hc, List.filter_nil]⟩

namespace Link

variable {config : Config} {a b : Plan} {s : Side} {tr : List (Occasion × Report)} {l : Link}

/-- What is known of a side whatever happened to it: its sink is listened to, the mailbox of its
peer is open, and all it sent and notified is in order. -/
structure Signing (l : Link) (s : Side) : Prop where
  sink : (l.side s).pipe.sink.isSome = true
  listening : (l.side s).listening = true
  receiving : (l.side s.other).inbox.receiving = true
  orderly : Orderly (l.side s).pipe (l.commands s.other) (l.side s).events

theorem Signing.occur (h : Signing l s) (o : Occasion) : Signing (l.occur s o).2 s := by
  obtain ⟨hs, hl, hr, ho⟩ := h
  rcases l.occur_cases s o with ⟨st, r, ht⟩ | hu
  · obtain ⟨sink, hsink⟩ := Option.isSome_iff_exists.1 hs
    have hsink' := ht.reacts.sink.trans hsink
    refine ⟨?_, (ht.listening s).trans hl, (ht.receiving s.other).trans hr, ?_⟩
    · rw [ht.own, hsink']
      rfl
    · rw [ht.own, ht.outbox, if_pos hr, ht.heard sink hsink' hl]
      exact ho.react ht.reacts (by cases sink <;> rfl)
  · obtain ⟨k, i, hp, hk⟩ := hu.pipe
    refine ⟨?_, hu.listening hl, ?_, ?_⟩
    · rw [hp, hk hs]
      exact hs
    · rw [hu.inbox, hr]
    · rw [hp, commands, hu.inbox, hu.events]
      exact ⟨ho.honest, ho.released, ho.asked, ho.acknowledged, ho.ended⟩

theorem Exposed.signing (h : Exposed config a b s tr l)
    (hs : (planOf a b s).sink.isSome = true) : Signing l s := by
  induction h with
  | fresh h =>
    obtain ⟨log, rfl⟩ := eq_of_create h
    have hn : ∀ {α : Type} {x : α}, LastWord x false [] := .unsaid List.not_mem_nil
    cases s with
    | a => exact ⟨hs, hs, rfl, rfl, nofun, Nat.le_refl 1, hn, hn⟩
    | b => exact ⟨hs, hs, rfl, rfl, nofun, Nat.le_refl 1, hn, hn⟩
  | occur h o ih => exact ih.occur o

/-- The end of a side is notified in the step that takes it down, and in no other. -/
theorem Signing.terminated_iff (h : Signing l s) (o : Occasion) :
    .terminated ∈ Effect.events (l.occur s o).1.effects ↔
      (l.side s).pipe.isClosed = false ∧ ((l.occur s o).2.side s).pipe.isClosed = true := by
  rcases l.occur_cases s o with ⟨st, r, ht⟩ | hu
  · rw [ht.notified, ht.own]
    cases hc : (l.side s).pipe.isClosed with
    | true =>
      rw [ht.reacts.events_of_closed h.orderly.honest (h.orderly.released hc) hc]
      simp
    | false => rw [(ht.reacts.ends hc).mem_iff, eq_self, true_and]
  · obtain ⟨k, i, hp, -⟩ := hu.pipe
    have hc : ((l.occur s o).2.side s).pipe.isClosed = (l.side s).pipe.isClosed := by
      rw [hp]
      rfl
    rw [hu.effects, hc]
    cases (l.side s).pipe.isClosed <;> simp [Effect.events]

/-- **An end signs off once, and nothing follows.** Whatever happens to a side with a sink, it asks
to terminate at most once and acknowledges at most once, and sends nothing after that; its sink
hears of its end at most once and of nothing after that, and hears of it as the end is taken
down. -/
theorem signs_off_once (h : Exposed config a b s tr l) (hs : (planOf a b s).sink.isSome = true) :
    (l.commands s.other).count .pipeTerm ≤ 1 ∧
    (l.commands s.other).count .pipeTermAck ≤ 1 ∧
    (∀ cs ds, l.commands s.other = cs ++ .pipeTermAck :: ds → ds = []) ∧
    (l.side s).events.count .terminated ≤ 1 ∧
    (∀ es fs, (l.side s).events = es ++ .terminated :: fs → fs = []) ∧
    (.terminated ∈ (l.side s).events ↔ (l.side s).pipe.isClosed = true) ∧
    ∀ o, .terminated ∈ Effect.events (l.occur s o).1.effects ↔
      (l.side s).pipe.isClosed = false ∧ ((l.occur s o).2.side s).pipe.isClosed = true := by
  have hsign := h.signing hs
  obtain ⟨-, -, hasked, hack, hend⟩ := hsign.orderly
  exact ⟨(Nat.le_add_right ..).trans hasked, hack.count_le,
    fun cs ds he => LastWord.eq_nil_of_append (he ▸ hack), hend.count_le,
    fun es fs he => LastWord.eq_nil_of_append (he ▸ hend), hend.mem_iff, hsign.terminated_iff⟩

/-- An end is handed acknowledgments and requests that were never sent, and again, and its owner
goes on to call it: it says what it has to say, and that is all. -/
theorem signs_off_once_under_forgery :
    ∃ (tr : List (Occasion × Report)) (l : Link),
      Exposed {} { options := {} } { options := {} } .a tr l ∧
      (planOf { options := {} } { options := {} } .a).sink.isSome = true ∧
      l.commands .b = [.pipeTerm, .pipeTermAck] ∧
      (∀ cs ds, l.commands .b = cs ++ .pipeTermAck :: ds → ds = []) ∧
      (l.side .a).events = [.terminated] ∧
      ∀ o, .terminated ∈ Effect.events (l.occur .a o).1.effects ↔
        (l.side .a).pipe.isClosed = false ∧ ((l.occur .a o).2.side .a).pipe.isClosed = true := by
  have h : Exposed {} { options := {} } { options := {} } .a _ _ := exposed_of_occasions rfl .a
    [.process .pipeTermAck, .call (.terminate true), .process .pipeTerm, .process .pipeTerm,
      .call .hiccup, .process .pipeTermAck, .process .pipeTermAck, .process .activateRead,
      .process (.hiccup (.loose 1) (.loose 2)), .call (.terminate false), .call .flush]
  exact ⟨_, _, h, rfl, by decide, (signs_off_once h rfl).2.2.1, by decide,
    (signs_off_once h rfl).2.2.2.2.2.2⟩

end Link

end MessagePipe
