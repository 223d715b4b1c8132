import MessagePipe.Proofs.SignOff

/-!
# The life of an end

An end goes through the handshake in one direction (§4.3 of the specification), whatever its owner
asks of it, whatever commands it is handed, and also where a fault cut an operation short. Its state
says whether it still has its outbound queue; it loses its inbound queue in the states without an
outbound one, and does not get another. It counts up only. Without the outbound queue whatever would
need it does nothing, or hands back the frame (§3: once the outbound write end is released, writes
fail and flushes do nothing).

* `State.stage_on`: a signal leads onwards, or nowhere. The stage of a state is how far it is from
  normal operation, so a state that was left is not entered again.
* `Reacts.later`: what a reaction leaves of an end is later in its life (`Pipe.Later`): its state,
  its queues, its counts, and what is set at most once.
* `Link.Use`: what can be done with one side, calls and commands from nowhere included; `use_cases`:
  every use is a reaction of the end, or sets no more than its sink or its identity.
* `Reacts.eq_of_released`, with `Stimulus.answerReleased?`: what becomes of a use that needs the
  outbound queue, once that is gone.
* `Link.lifecycle`: both, for three moments in the life of either end of a fresh pair.
* `Link.delimiter_kept`: a delimiter is not handed back, since the assertion on it comes before the
  state is looked at.

There is no premise on the peer; what both ends together go through is in `Proofs/Handshake`.

Out of scope: what the commands are that an end sends on its way, for which see `Proofs/SignOff`.
-/

namespace MessagePipe

/-! ## Getting older -/

/-- How far a state is from normal operation. -/
def State.stage : State → Nat
  | active => 0
  | delimited | pending => 1
  | terminated => 2
  | terminating | doubleTerminated => 3

/-- A signal leads onwards, or nowhere. -/
theorem State.stage_on {s s' : State} {sg : Signal} {a : Action} (h : s.on sg = some (s', a)) :
    s' = s ∨ s.stage < s'.stage := by
  cases move_of_on h <;> decide

/-- An end in its later life. -/
structure Pipe.Later (p p' : Pipe) : Prop where
  state : p'.state = p.state ∨ p.state.stage < p'.state.stage
  closed : p.isClosed = true → p'.isClosed = true
  msgsRead : p.msgsRead ≤ p'.msgsRead
  msgsWritten : p.msgsWritten ≤ p'.msgsWritten

namespace Pipe.Later

variable {p p' p'' : Pipe}

theorem refl (p : Pipe) : p.Later p :=
  ⟨.inl rfl, fun hc => hc, Nat.le_refl _, Nat.le_refl _⟩

theorem trans (h : p.Later p') (h' : p'.Later p'') : p.Later p'' where
  state := by
    rcases h.state with hs | hs <;> rcases h'.state with hs' | hs'
    · exact .inl (hs'.trans hs)
    · exact .inr (hs ▸ hs')
    · exact .inr (hs' ▸ hs)
    · exact .inr (hs.trans hs')
  closed hc := h'.closed (h.closed hc)
  msgsRead := h.msgsRead.trans h'.msgsRead
  msgsWritten := h.msgsWritten.trans h'.msgsWritten

/-- A state that was left is not entered again. -/
theorem state_between (h : p.Later p') (h' : p'.Later p'') (he : p''.state = p.state) :
    p'.state = p.state := by
  rcases h.state with hs | hs
  · exact hs
  · rcases h'.state with hs' | hs'
    · exact hs'.symm.trans he
    · rw [he] at hs'
      exact absurd (hs.trans hs') (Nat.lt_irrefl _)

end Pipe.Later

section Reacts

variable {p : Pipe} {v : View} {st : Stimulus} {r : Reaction}

/-- **Every reaction leaves an end later in its life.** -/
theorem Reacts.later (h : Reacts p v st r) : p.Later r.pipe where
  state := by
    rcases h.state_cases with he | ⟨sg, s, a, hon, rfl⟩
    · exact .inl he
    · exact State.stage_on hon
  closed := h.closed_of_closed
  msgsRead := by
    cases h with
    | readFrame => exact Nat.le_add_right ..
    | _ => exact Nat.le_refl _
  msgsWritten := by
    cases h with
    | writeAccepted => exact Nat.le_add_right ..
    | _ => exact Nat.le_refl _

/-- What the end answers to a use of its outbound queue or of the way to get another one, once it
gave that queue up; `none` for any other use. -/
def Stimulus.answerReleased? : Stimulus → Option (Except Fault Reply)
  | .call (.write f) => some (if f.isDelimiter then .error .delimiterWritten else .ok (.refused f))
  | .call .flush | .call .rollback | .call .hiccup | .command (.hiccup ..) => some (.ok .done)
  | _ => none

/-- **Without its outbound queue an end answers, and does nothing else.** -/
theorem Reacts.eq_of_released (h : Reacts p v st r) (hp : p.Honest) (ho : p.outbound = none)
    {answer : Except Fault Reply} (hst : st.answerReleased? = some answer) :
    r = { result := answer, pipe := p, view := v } := by
  have hreleased : p.state.hasReleased = true := by rw [← hp, ho]; rfl
  have hactive : p.state ≠ .active := fun ha => by rw [ha] at hreleased; cases hreleased
  cases h with
  | writeDelimiter hf | writeRefused hf =>
    cases hst
    rw [hf]
    rfl
  | writeFull _ _ hs | writeAccepted _ _ hs => exact absurd hs hactive
  | flush _ hq | rollback hq | rollbackFault hq | hiccupMoved _ hq | hiccupUnflushed _ hq =>
    cases ho.symm.trans hq
  | hiccup hs => exact absurd hs hactive
  -- Reading needs no outbound queue.
  | @lookIdle c _ hc | @lookDry c _ _ hc | @lookDelimiter c _ _ _ _ _ _ hc =>
    cases c with
    | read | checkRead => cases hst
    | _ => cases hc
  | _ => cases hst <;> rfl

end Reacts

namespace Link

/-! ## What can be done with an end -/

/-- Lets the pipe of one side do what a command asks for, without entering it in the log. -/
def obey (l : Link) (s : Side) (c : Command) : Report × Link :=
  let o := (l.turn s).obey c
  ({ result := o.result.map fun _ => .done, effects := o.turn.effects }, l.settle s o.turn)

theorem turned_obey (l : Link) (s : Side) (c : Command) :
    ∃ r, Turned l s (.command c) r (l.obey s c).1 (l.obey s c).2 := by
  have h := turned_settle l s (l.side s).inbox (Turn.reacts_obey (l.quiet_turn s) c) rfl
  rw [put_side] at h
  exact ⟨_, h⟩

/-- What can be done with one side of a pair. -/
inductive Use where
  /-- Anything that can happen to it. -/
  | occasion (occasion : Occasion)
  /-- Its pipe does what a command asks for, without taking it for one that arrived. -/
  | obey (command : Command)

/-- Does one thing with side `s`. -/
def use (l : Link) (s : Side) : Use → Report × Link
  | .occasion o => l.occur s o
  | .obey c => l.obey s c

/-- Does one thing after the other with side `s`. -/
def useAll (l : Link) (s : Side) : List Use → Link
  | [] => l
  | u :: us => (l.use s u).2.useAll s us

/-- What a use makes the pipe do, if it does. -/
def Use.stimulus? : Use → Option Stimulus
  | .occasion (.call c) => some (.call c)
  | .occasion (.process c) | .obey c => some (.command c)
  | .occasion _ => none

theorem turned_use (l : Link) (s : Side) {u : Use} {st : Stimulus} (hst : u.stimulus? = some st) :
    ∃ r, Turned l s st r (l.use s u).1 (l.use s u).2 := by
  cases u with
  | obey c =>
    cases hst
    exact l.turned_obey s c
  | occasion o =>
    cases o with
    | call c =>
      cases hst
      obtain ⟨r, ht⟩ := l.took_call s c
      exact ⟨r, ht.toTurned⟩
    | process c =>
      cases hst
      exact l.turned_process s c
    | _ => cases hst

/-- **Every use is a reaction of the end, or sets no more than its sink or its identity.** -/
theorem use_cases (l : Link) (s : Side) (u : Use) :
    (∃ st r, Turned l s st r (l.use s u).1 (l.use s u).2) ∨
      ∃ k i, ((l.use s u).2.side s).pipe = { (l.side s).pipe with sink := k, identity := i } := by
  cases u with
  | obey c =>
    obtain ⟨r, ht⟩ := l.turned_obey s c
    exact .inl ⟨_, r, ht⟩
  | occasion o =>
    rcases l.occur_cases s o with ht | hu
    · exact .inl ht
    · obtain ⟨k, i, hp, -⟩ := hu.pipe
      exact .inr ⟨k, i, hp⟩

/-- What is known of an end whatever was done with it. -/
structure Lasting (p : Pipe) : Prop where
  honest : p.Honest
  released : p.isClosed = true → p.state.hasReleased = true

/-- **One use leaves an end later in its life.** -/
theorem use_lasting {l : Link} {s : Side} (h : Lasting (l.side s).pipe) (u : Use) :
    Lasting ((l.use s u).2.side s).pipe ∧ (l.side s).pipe.Later ((l.use s u).2.side s).pipe := by
  rcases l.use_cases s u with ⟨st, r, ht⟩ | ⟨k, i, hp⟩
  · rw [ht.own]
    exact ⟨⟨ht.reacts.honest h.honest, ht.reacts.released_of_closed h.released⟩, ht.reacts.later⟩
  · rw [hp]
    exact ⟨⟨h.honest, h.released⟩, ⟨.inl rfl, id, Nat.le_refl _, Nat.le_refl _⟩⟩

/-- **So does any number of uses.** -/
theorem useAll_lasting {l : Link} {s : Side} (h : Lasting (l.side s).pipe) (us : List Use) :
    Lasting ((l.useAll s us).side s).pipe ∧
      (l.side s).pipe.Later ((l.useAll s us).side s).pipe := by
  induction us generalizing l with
  | nil => exact ⟨h, .refl _⟩
  | cons u us ih =>
    obtain ⟨hu, hlater⟩ := use_lasting h u
    obtain ⟨hus, hlater'⟩ := ih hu
    exact ⟨hus, hlater.trans hlater'⟩

theorem lasting_of_create {config : Config} {a b : Plan} {l : Link} (h : create config a b = .ok l)
    (s : Side) : Lasting (l.side s).pipe := by
  obtain ⟨log, rfl⟩ := eq_of_create h
  cases s <;> exact ⟨rfl, nofun⟩

/-- A use of side `s` is answered, and nothing else comes of it. -/
structure Vain (l : Link) (s : Side) (u : Use) (answer : Except Fault Reply) : Prop where
  result : (l.use s u).1.result = answer
  posted : Effect.commands (l.use s u).1.effects = []
  notified : Effect.events (l.use s u).1.effects = []
  pipe : ((l.use s u).2.side s).pipe = (l.side s).pipe
  view : (l.use s u).2.view = l.view

theorem vain_of_released {l : Link} {s : Side} {u : Use} {st : Stimulus}
    {answer : Except Fault Reply} (h : (l.side s).pipe.Honest)
    (ho : (l.side s).pipe.outbound = none) (hu : u.stimulus? = some st)
    (hst : st.answerReleased? = some answer) : Vain l s u answer := by
  obtain ⟨r, ht⟩ := l.turned_use s hu
  obtain rfl := ht.reacts.eq_of_released h ho hst
  exact ⟨ht.result, ht.posted, ht.notified, ht.own, ht.view⟩

/-- **The life of an end.** Whatever is done with an end of a fresh pair, three moments of its life
after one another: the outbound queue is given up exactly in the last two states, the inbound one is
missing only there, and for good; a state that was left is not entered again; the counts only grow.
Once the outbound queue is given up, a frame that is written is handed back (a delimiter, which is
not the owner's to write, is a fault), flushing, rolling back and replacing the inbound queue do
nothing, and neither does the peer's replacing its own. -/
theorem lifecycle {config : Config} {a b : Plan} {l : Link} (h : create config a b = .ok l)
    (s : Side) (us vs ws : List Use) :
    let l₁ := l.useAll s us
    let p₁ := (l₁.side s).pipe
    let p₂ := ((l₁.useAll s vs).side s).pipe
    let p₃ := (((l₁.useAll s vs).useAll s ws).side s).pipe
    (p₁.outbound = none ↔ p₁.state = .terminating ∨ p₁.state = .doubleTerminated) ∧
    (p₁.isClosed = true →
      (p₁.state = .terminating ∨ p₁.state = .doubleTerminated) ∧ p₂.isClosed = true) ∧
    (p₃.state = p₁.state → p₂.state = p₁.state) ∧
    p₁.msgsRead ≤ p₂.msgsRead ∧ p₁.msgsWritten ≤ p₂.msgsWritten ∧
    (p₁.outbound = none →
      (∀ f, f.isDelimiter = false →
        Vain l₁ s (.occasion (.call (.write f))) (.ok (.refused f))) ∧
      (∀ f, f.isDelimiter = true →
        Vain l₁ s (.occasion (.call (.write f))) (.error .delimiterWritten)) ∧
      (∀ c ∈ [.flush, .rollback, .hiccup], Vain l₁ s (.occasion (.call c)) (.ok .done)) ∧
      ∀ w r, Vain l₁ s (.occasion (.process (.hiccup w r))) (.ok .done) ∧
        Vain l₁ s (.obey (.hiccup w r)) (.ok .done)) := by
  intro l₁ p₁ p₂ p₃
  have hreleased : p₁.state.hasReleased = true ↔
      p₁.state = .terminating ∨ p₁.state = .doubleTerminated := by
    cases p₁.state <;> decide
  obtain ⟨h₁, -⟩ := useAll_lasting (lasting_of_create h s) us
  obtain ⟨h₂, hlater⟩ := useAll_lasting h₁ vs
  obtain ⟨-, hlater'⟩ := useAll_lasting h₂ ws
  refine ⟨?_, fun hc => ⟨hreleased.1 (h₁.released hc), hlater.closed hc⟩,
    hlater.state_between hlater', hlater.msgsRead, hlater.msgsWritten, fun ho => ?_⟩
  · rw [← hreleased, ← h₁.honest, Option.isNone_iff_eq_none]
  · have hvain {u : Use} {st : Stimulus} {answer : Except Fault Reply}
        (hu : u.stimulus? = some st) (hst : st.answerReleased? = some answer) :
        Vain l₁ s u answer :=
      vain_of_released h₁.honest ho hu hst
    refine ⟨fun f hf => hvain rfl ?_, fun f hf => hvain rfl ?_, fun c hc => ?_,
      fun w r => ⟨hvain rfl rfl, hvain rfl rfl⟩⟩
    · rw [Stimulus.answerReleased?, hf]
      rfl
    · rw [Stimulus.answerReleased?, hf]
      rfl
    · simp only [List.mem_cons, List.not_mem_nil, or_false] at hc
      rcases hc with rfl | rfl | rfl <;> exact hvain rfl rfl

/-- An end is handed an acknowledgment that was never sent, then a request, an acknowledgment and
another one: it gives up its outbound queue, then loses the inbound one. What is written in between
is handed back. -/
theorem lifecycle_under_forgery :
    ∃ l : Link, create {} { options := {} } { options := { delay := false } } = .ok l ∧
      let f : Frame := { payload := .empty }
      let l₁ := l.useAll .b [.occasion (.process .pipeTermAck), .obey .pipeTerm]
      let l₂ := l₁.useAll .b [.obey .pipeTermAck]
      let l₃ := l₂.useAll .b [.occasion (.process .pipeTermAck), .occasion (.call .hiccup)]
      (l₁.side .b).pipe.outbound = none ∧ (l₁.side .b).pipe.state = .terminating ∧
      (l₁.side .b).pipe.isClosed = false ∧ (l₂.side .b).pipe.isClosed = true ∧
      (l₃.side .b).pipe.isClosed = true ∧ (l₂.side .b).pipe.state = .terminating ∧
      Vain l₁ .b (.occasion (.call (.write f))) (.ok (.refused f)) := by
  have hcreate : create {} { options := {} } { options := { delay := false } } = .ok _ := rfl
  refine ⟨_, hcreate, ?_⟩
  intro f l₁ l₂ l₃
  have hfirst := lifecycle hcreate .b [.occasion (.process .pipeTermAck), .obey .pipeTerm]
    [.obey .pipeTermAck] [.occasion (.process .pipeTermAck), .occasion (.call .hiccup)]
  have hsecond := lifecycle hcreate .b
    [.occasion (.process .pipeTermAck), .obey .pipeTerm, .obey .pipeTermAck]
    [.occasion (.process .pipeTermAck), .occasion (.call .hiccup)] []
  have hreleased : (l₁.side .b).pipe.outbound = none := by decide
  have hclosed : (l₂.side .b).pipe.isClosed = true := by decide
  have hstate : (l₁.side .b).pipe.state = .terminating := by decide
  refine ⟨hreleased, hstate, by decide, hclosed, (hsecond.2.1 hclosed).2, ?_,
    (hfirst.2.2.2.2.2 hreleased).1 f (by decide)⟩
  exact (hfirst.2.2.1 (by decide)).trans hstate

/-- A delimiter is not handed back. -/
theorem delimiter_kept :
    ¬∀ (config : Config) (a b : Plan) (l : Link) (s : Side) (us : List Use) (f : Frame),
      create config a b = .ok l → ((l.useAll s us).side s).pipe.outbound = none →
      ((l.useAll s us).use s (.occasion (.call (.write f)))).1.result = .ok (.refused f) := by
  intro h
  have h := h {} { options := {} } { options := { delay := false } } _ .b
    [.occasion (.process .pipeTerm)] .delimiter rfl (by decide)
  cases h

end Link

end MessagePipe
