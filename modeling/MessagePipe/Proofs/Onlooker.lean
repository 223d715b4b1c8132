import MessagePipe.Exchange.Step
import MessagePipe.Proofs.Run

/-!
# What an onlooker sees of a link

A program that drives pipes from outside is told after each step what it was answered, which pipe it
addressed, what was sent, what the sinks passed on, and what was logged: an `Observation`. A `Link`
keeps these things instead: a step reports its result and its effects, and events and entries pile
up. This module says what of the second is the first.

* `Link.Step.inExchange`: a step of a link, as a step of the exchange that holds its pair. A command
  that is delivered is the oldest one pending, and goes to the pipe it names.
* `Link.answer` and `Link.addressed`: what the step is answered. A delivery is answered by a view of
  the command it handed on, since the two ends of a queue that travel in a notice are printed by
  what they hold (`Command.view`).
* `Link.newsOf`: what is told of the effects of one pipe, from the link as it is after them:
  commands that were posted, where the mailbox took them; events that the sink passes on and
  somebody receives; the entries.
* `Link.observe`: the three together, and `Link.observeAll` for one step after the other.
* `Link.keeps_step`: nothing of the news is invented or forgotten. What a step logs is behind what
  was logged before, and what it tells of each sink is behind the events that were passed on before.

That an exchange shows exactly this is in `Proofs/Mirror`.

Out of scope: steps about queues and mailboxes that belong to no pipe, which a link does not have.
-/

namespace MessagePipe

namespace Link

/-- A step of a link, as a step of the exchange that holds its pair. -/
def Step.inExchange : Link.Step → Exchange.Step
  | .call s c => .pipe s.id (.call c)
  | .setSink s sink => .pipe s.id (.setSink (some sink))
  | .setIdentity s identity => .pipe s.id (.setIdentity identity.bytes)
  | .deliver s => .deliver s.owner 0 none
  | .closeInbox s => .dropInbox s.owner

/-- What a step is answered where it reports `rep`. -/
def answer (l : Link) (rep : Report) : Link.Step → Exchange.Answer
  | .call .. | .setSink .. | .setIdentity .. => .ofExcept .reply rep.result
  | .deliver s =>
    match (l.side s).inbox.queued.toList with
    | [] => .noCommand
    | e :: _ => .ofExcept (fun _ => .command s.id (Command.view l.queues e.command)) rep.result
  | .closeInbox s => .flag (l.side s).inbox.receiving

/-- The side whose pipe a step works with. -/
def addressed (l : Link) : Link.Step → Option Side
  | .call s _ | .setSink s _ | .setIdentity s _ => some s
  | .deliver s => if (l.side s).inbox.queued.toList = [] then none else some s
  | .closeInbox _ => none

/-- What is told of effects of the pipe of side `s`, with the pair as it is after them. -/
def newsOf (l : Link) (s : Side) (es : List Effect) : Exchange.News where
  sent :=
    if (l.side s.other).inbox.receiving then
      ((Effect.commands es).map fun command =>
        (s.other.owner, Envelope.view l.queues { target := s.other.id, command })).toArray
    else #[]
  events :=
    ((Effect.events es).filter ((l.side s).pipe.passes (l.side s).listening)).map fun e => (s.id, e)
  log := es.flatMap (Surroundings.entries (l.side s).pipe (l.side s.other).inbox.receiving
    (l.side s).listening)

/-- What an onlooker sees of a step. -/
def observe (l : Link) (step : Step) : Exchange.Observation where
  answer := l.answer (l.step step).1 step
  pipe := (l.addressed step).map fun s => ((l.step step).2.side s).pipe
  news := (l.step step).2.newsOf step.side (l.step step).1.effects

/-- The events in the news of a side, without its name. -/
def heardIn (s : Side) (news : Exchange.News) : List Event :=
  news.events.filterMap fun (p, e) => if p = s.id then some e else none

theorem log_settle (l : Link) (s : Side) (t : Turn) :
    (l.settle s t).log.toList =
      l.log.toList ++ ((l.settle s t).newsOf s t.effects).log := by
  rw [newsOf, pipe_settle_self, receiving_settle, listening_settle]
  exact Surroundings.log_applyAll ..

theorem events_settle (l : Link) (s s' : Side) (t : Turn) :
    ((l.settle s t).side s').events =
      (l.side s').events ++ heardIn s' ((l.settle s t).newsOf s t.effects) := by
  rw [heardIn, newsOf, pipe_settle_self, listening_settle]
  dsimp only
  rw [List.filterMap_map]
  rcases s.eq_or_eq_other s' with rfl | rfl
  · rw [events_settle_self]
    simp [Turn.events]
  · rw [events_settle_other]
    simp [s.id_ne]

/-- `news` is what a link noted and passed on to become `l'`. -/
structure Keeps (l l' : Link) (news : Exchange.News) : Prop where
  log : l'.log.toList = l.log.toList ++ news.log
  events : ∀ s, (l'.side s).events = (l.side s).events ++ heardIn s news

theorem keeps_settle (l : Link) (s : Side) (t : Turn) :
    Keeps l (l.settle s t) ((l.settle s t).newsOf s t.effects) :=
  ⟨l.log_settle s t, fun s' => l.events_settle s s' t⟩

theorem keeps_put (l : Link) (s : Side) {e : Endpoint} (he : e.events = (l.side s).events) :
    Keeps l (l.put s e) ((l.put s e).newsOf s []) := by
  refine ⟨?_, fun s' => ?_⟩
  · rw [newsOf, List.flatMap_nil, List.append_nil]
    cases s <;> rfl
  · have hnone : heardIn s' ((l.put s e).newsOf s []) = [] := rfl
    rw [hnone, List.append_nil]
    rcases s.eq_or_eq_other s' with rfl | rfl
    · rw [side_put_self, he]
    · rw [side_put_other]

/-- **A link keeps all that was told:** what a step logs and what its sinks pass on is added to what
was there. -/
theorem keeps_step (l : Link) (st : Step) : Keeps l (l.step st).2 (l.observe st).news := by
  have hsame : ∀ s, Keeps l l (l.newsOf s []) := fun s => by
    simpa only [put_side] using l.keeps_put s rfl
  cases st with
  | call s c => exact l.keeps_settle s _
  | setSink s sink =>
    unfold observe step setSink
    dsimp only [Step.side]
    split
    · exact hsame s
    · exact l.keeps_put s rfl
  | setIdentity s identity =>
    unfold observe step setIdentity
    dsimp only [Step.side]
    split
    · exact hsame s
    · exact l.keeps_put s rfl
  | deliver s =>
    cases hc : l.commands s with
    | nil =>
      unfold observe
      rw [step_deliver_nil hc]
      exact hsame s
    | cons c left =>
      obtain ⟨e, inbox, hreceive, -⟩ := receive_cons hc
      have hstep : l.step (.deliver s) =
          (l.put s { l.side s with inbox }).process s e.command := by
        unfold step
        dsimp only
        rw [hreceive]
      have hput := l.keeps_put s (e := { l.side s with inbox }) rfl
      have hsettle := (l.put s { l.side s with inbox }).keeps_settle s
        (((l.put s { l.side s with inbox }).turn s).process e.command).turn
      unfold observe
      rw [hstep]
      -- Nothing is told of the command being taken from the mailbox.
      exact ⟨hsettle.log.trans (congrArg (· ++ _) (hput.log.trans (List.append_nil _))), fun s' =>
        (hsettle.events s').trans (congrArg (· ++ _) ((hput.events s').trans (List.append_nil _)))⟩
  | closeInbox s => exact l.keeps_put s rfl

/-- What an onlooker sees of one step after the other. -/
def observeAll (l : Link) : List Step → List Exchange.Observation
  | [] => []
  | step :: steps => l.observe step :: (l.step step).2.observeAll steps

end Link

end MessagePipe
