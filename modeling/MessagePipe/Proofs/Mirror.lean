import MessagePipe.Proofs.Onlooker
import MessagePipe.Proofs.Stations

/-!
# An exchange with one pair is a link

There are two ways to put pipes to work. `Exchange` (`Exchange/Step`) has any number of owners and
pairs, queues that belong to no pipe, commands that are handed on in any order or to another pipe,
and tells an onlooker all that came of a step; it is what a program that is driven from outside
runs. `Link` has one pair and its two owners, and is what the results about pairs are stated on.
Here the second is shown to be the first with one pair in it, step by step and with everything that
can be seen.

* `Mirrors`: the exchange has the two pipes of the link, with the same queues, mailboxes and sinks.
  What arrived at a side is pending with its owner, and nothing is left to look at.
* `Mirrors.use`: a call does to the pair of an exchange what it does to the link, and what it sent,
  noted and notified beyond that is told. It is the lemma all steps rest on.
* `Mirrors.step_call`, `step_deliver`, `step_setSink`, `step_setIdentity`, `step_closeInbox`: one
  for each kind of step, and `Mirrors.step` for all of them; `Mirrors.step_process` for a command
  that nobody sent. An onlooker sees of each what `Link.observe` says (`Proofs/Onlooker`).
* `Mirrors.run`: any number of steps, by induction on them.
* `create_eq_error_iff`, `exists_mirrors_of_create`: an exchange with one pair is refused as the
  link is, and otherwise mirrors it.
* `run_of_create`: the two together, from the start.

`Named` is kept by every reaction: a pipe keeps its number and what it knows of its peer. It is why
an envelope finds its pipe.

Out of scope: exchanges with several pairs, of which `Proofs/Settling` says that pumping comes to an
end.
-/

namespace MessagePipe

/-- A pipe is that of side `s`, by its number and by what it knows of its peer. -/
structure Named (s : Side) (p : Pipe) : Prop where
  id : p.id = s.id
  peer : p.peer = s.other.id
  peerOwner : p.peerOwner = s.other.owner

theorem Reacts.named {p : Pipe} {v : View} {st : Stimulus} {r : Reaction} (h : Reacts p v st r)
    {s : Side} (hp : Named s p) : Named s r.pipe := by
  have hsame : r.pipe.id = p.id ∧ r.pipe.peer = p.peer ∧ r.pipe.peerOwner = p.peerOwner := by
    cases h <;> exact ⟨rfl, rfl, rfl⟩
  exact ⟨hsame.1.trans hp.id, hsame.2.1.trans hp.peer, hsame.2.2.trans hp.peerOwner⟩

namespace Exchange

/-- Does one thing after the other. -/
def run (x : Exchange) : List Step → List Observation × Exchange
  | [] => ([], x)
  | s :: steps => ((x.step s).1 :: ((x.step s).2.run steps).1, ((x.step s).2.run steps).2)

/-! ## The exchange of a link -/

/-- The owner of a side, with what arrived at the side pending. -/
def ownerOf (e : Endpoint) : Owner where
  mailbox := { e.inbox with queued := .empty }
  pending := e.inbox.queued.toList

/-- The station of the pipe of a side, with no event to look at. -/
def stationOf (e : Endpoint) : Station where
  pipe := e.pipe

theorem pipe_stationOf (e : Endpoint) : (stationOf e).pipe = e.pipe := rfl

/-- The exchange `x` has the two pipes of the link `l`, and nothing is left to look at. -/
structure Mirrors (x : Exchange) (l : Link) : Prop where
  owners : x.owners = [ownerOf l.a, ownerOf l.b]
  stations : x.stations = [stationOf l.a, stationOf l.b]
  listened : ∀ s : Side, x.isListened s.id = (l.side s).listening
  queues : x.queues = l.queues
  sent : x.sent = #[]
  log : x.log = .empty
  named : ∀ s, Named s (l.side s).pipe
  targets : ∀ s, ∀ e ∈ (l.side s).inbox.queued.toList, e.target = s.id

namespace Mirrors

variable {x : Exchange} {l : Link} (h : x.Mirrors l) (s : Side)

include h

theorem owner : x.owners[s.owner]? = some (ownerOf (l.side s)) := by
  rw [h.owners]
  cases s <;> rfl

theorem station : x.station? s.id = some (stationOf (l.side s)) := by
  rw [station?, h.stations]
  have ha : (stationOf l.a).pipe.id = Side.a.id := (h.named .a).id
  have hb : (stationOf l.b).pipe.id = Side.b.id := (h.named .b).id
  cases s with
  | a => exact List.find?_cons_of_pos (decide_eq_true ha)
  | b =>
    rw [List.find?_cons_of_neg (by rw [ha]; decide)]
    exact List.find?_cons_of_pos (decide_eq_true hb)

theorem mailbox : x.mailbox s.owner = { (l.side s).inbox with queued := .empty } :=
  mailbox_of_getElem? (h.owner s)

theorem id_station : (stationOf (l.side s)).pipe.id = s.id :=
  (h.named s).id

theorem peerOwner_station : (stationOf (l.side s)).pipe.peerOwner = s.other.owner :=
  (h.named s).peerOwner

theorem drained : x.Drained := by
  intro owner ho
  rw [h.owners, List.mem_cons, List.mem_singleton] at ho
  rcases ho with rfl | rfl <;> rfl

theorem outcome {α : Type} (call : Turn → Outcome α) :
    x.outcome call (stationOf (l.side s)) = call (l.turn s) := by
  unfold Exchange.outcome
  rw [h.queues]
  rfl

end Mirrors

/-! ## A turn of one pipe -/

section Settle

variable (l : Link) (s : Side) (t : Turn)

theorem ownerOf_settle_self : ownerOf ((l.settle s t).side s) = ownerOf (l.side s) := by
  unfold ownerOf
  rw [Link.inbox_settle_self]

theorem handles_settle_other :
    ((l.settle s t).side s.other).inbox.handles = (l.side s.other).inbox.handles := by
  have := Surroundings.handles_applyAll
    { mailbox := (l.side s.other).inbox, listening := (l.side s).listening,
      events := (l.side s).events, log := l.log } t.pipe t.effects
  cases s <;> exact this

theorem ownerOf_settle_other : ownerOf ((l.settle s t).side s.other) =
    (ownerOf (l.side s.other)).told t.pipe.peer t.posted := by
  cases hr : (l.side s.other).inbox.receiving with
  | false =>
    rw [ownerOf, Link.inbox_settle_other_of_closed l s t hr, Owner.told, ownerOf]
    dsimp only
    rw [hr, if_neg Bool.false_ne_true, List.append_nil]
  | true =>
    have hreceiving := (Link.receiving_settle l s s.other t).trans hr
    rw [ownerOf, Link.queued_settle_other l s t hr, Owner.told, ownerOf]
    dsimp only
    rw [hreceiving, handles_settle_other, hr, if_pos rfl]

end Settle

namespace Mirrors

variable {x : Exchange} {l : Link} (h : x.Mirrors l) (s : Side)

include h

theorem owners_use {α : Type} (call : Turn → Outcome α) :
    (x.use (stationOf (l.side s)) call).2.collect.owners =
      [ownerOf (l.settle s (call (l.turn s)).turn).a,
        ownerOf (l.settle s (call (l.turn s)).turn).b] := by
  rw [owners_collect_use call h.drained, h.outcome, h.peerOwner_station, h.owners]
  have hself := ownerOf_settle_self l s (call (l.turn s)).turn
  have hother := ownerOf_settle_other l s (call (l.turn s)).turn
  cases s with
  | a => exact congrArg₂ (fun a b => [a, b]) hself.symm hother.symm
  | b => exact congrArg₂ (fun a b => [a, b]) hother.symm hself.symm

theorem stations_put {t : Station} (hid : t.pipe.id = s.id) :
    (x.putStation t).stations =
      [Side.a, Side.b].map fun s' => if s' = s then t else stationOf (l.side s') := by
  have hsame : ∀ s' : Side, (stationOf (l.side s')).pipe.id = s.id ↔ s' = s := fun s' => by
    rw [h.id_station s']
    cases s <;> cases s' <;> decide
  have hall : x.stations = [Side.a, Side.b].map fun s' => stationOf (l.side s') := h.stations
  rw [putStation, hall, hid, List.map_map]
  refine List.map_congr_left fun s' _ => ?_
  simp only [Function.comp_apply, hsame]

theorem id_used {α : Type} (call : Turn → Outcome α) (hn : Named s (call (l.turn s)).turn.pipe) :
    (x.used call (stationOf (l.side s))).pipe.id = s.id := by
  rw [used, h.outcome]
  exact hn.id

/-- The pipe that was called is there as the call left it, the other one as it was. -/
theorem stations_use {α : Type} (call : Turn → Outcome α)
    (hn : Named s (call (l.turn s)).turn.pipe) :
    (x.use (stationOf (l.side s)) call).2.stations = [Side.a, Side.b].map fun s' =>
      if s' = s then x.used call (stationOf (l.side s)) else stationOf (l.side s') :=
  (Exchange.stations_use ..).trans (h.stations_put s (h.id_used s call hn))

theorem events_used {α : Type} (call : Turn → Outcome α) :
    (x.used call (stationOf (l.side s))).events = (call (l.turn s)).turn.events.filter
      ((call (l.turn s)).turn.pipe.passes (l.side s).listening) := by
  rw [used, h.outcome, h.id_station, h.listened]
  rfl

theorem sent_use {α : Type} (call : Turn → Outcome α)
    (hn : Named s (call (l.turn s)).turn.pipe) :
    (x.use (stationOf (l.side s)) call).2.collect.sent =
      ((l.settle s (call (l.turn s)).turn).newsOf s (call (l.turn s)).turn.effects).sent := by
  have hpeer := h.peerOwner_station s
  have hself := arrived_use_of_ne call h.drained (s := stationOf (l.side s)) (o := s.owner)
    (by rw [hpeer]; cases s <;> decide)
  have hother := arrived_use call h.drained (s := stationOf (l.side s))
    (by rw [hpeer]; exact h.owner s.other)
  rw [hpeer, h.outcome, hn.peer] at hother
  have hlength : (x.use (stationOf (l.side s)) call).2.owners.length = 2 := by
    rw [length_owners_use, h.owners]
    rfl
  have hsent : (x.use (stationOf (l.side s)) call).2.sent = #[] := h.sent
  have hall : (x.use (stationOf (l.side s)) call).2.collect.sent.toList =
      (x.use (stationOf (l.side s)) call).2.arrived s.other.owner := by
    rw [sent_collect, hlength, hsent]
    change (x.use _ call).2.arrived Side.a.owner ++
      ((x.use _ call).2.arrived Side.b.owner ++ []) = _
    rw [List.append_nil]
    cases s with
    | a => exact congrArg (· ++ _) hself
    | b => exact (congrArg (_ ++ ·) hself).trans (List.append_nil _)
  refine Array.ext' (hall.trans (hother.trans ?_))
  rw [Link.newsOf, Link.receiving_settle, apply_ite Array.toList]
  rfl

theorem events_use {α : Type} (call : Turn → Outcome α)
    (hn : Named s (call (l.turn s)).turn.pipe) :
    (x.use (stationOf (l.side s)) call).2.stations.flatMap
        (fun s => s.events.map fun e => (s.pipe.id, e)) =
      ((l.settle s (call (l.turn s)).turn).newsOf s (call (l.turn s)).turn.effects).events := by
  have hid := h.id_used s call hn
  have hnews :
      ((l.settle s (call (l.turn s)).turn).newsOf s (call (l.turn s)).turn.effects).events =
        (x.used call (stationOf (l.side s))).events.map fun e => (s.id, e) := by
    rw [h.events_used, Link.newsOf, Link.pipe_settle_self, Link.listening_settle]
    rfl
  rw [hnews, h.stations_use s call hn, ← hid]
  cases s with
  | a => exact List.append_nil _
  | b => exact List.append_nil _

theorem log_use {α : Type} (call : Turn → Outcome α) :
    (x.use (stationOf (l.side s)) call).2.log.toList =
      ((l.settle s (call (l.turn s)).turn).newsOf s (call (l.turn s)).turn.effects).log := by
  have hlog : (x.use (stationOf (l.side s)) call).2.log.toList = x.log.toList ++
      (x.outcome call (stationOf (l.side s))).turn.effects.flatMap
        (Surroundings.entries (x.outcome call (stationOf (l.side s))).turn.pipe
          (x.mailbox (stationOf (l.side s)).pipe.peerOwner).receiving
          (x.isListened (stationOf (l.side s)).pipe.id)) :=
    Surroundings.log_applyAll ..
  rw [hlog, h.log, h.outcome, h.peerOwner_station, h.mailbox, h.id_station, h.listened,
    Link.newsOf, Link.pipe_settle_self, Link.receiving_settle, Link.listening_settle]
  rfl

/-- What arrived at a side is for the pipe of that side, also after a call. -/
theorem targets_settle (t : Turn) (hn : Named s t.pipe) (s' : Side) :
    ∀ e ∈ ((l.settle s t).side s').inbox.queued.toList, e.target = s'.id := by
  rcases s.eq_or_eq_other s' with rfl | rfl
  · rw [Link.inbox_settle_self]
    exact h.targets _
  · cases hr : (l.side s.other).inbox.receiving with
    | false =>
      rw [Link.inbox_settle_other_of_closed l s t hr]
      exact h.targets _
    | true =>
      intro e he
      rw [Link.queued_settle_other l s t hr, List.mem_append, List.mem_map] at he
      rcases he with he | ⟨c, -, rfl⟩
      · exact h.targets _ e he
      · exact hn.peer

/-- **A call does to the pair of an exchange what it does to a link,** and all that it does beyond
that is told. -/
theorem use {α : Type} (call : Turn → Outcome α) (hn : Named s (call (l.turn s)).turn.pipe) :
    (x.use (stationOf (l.side s)) call).2.collect.look.1 =
        (l.settle s (call (l.turn s)).turn).newsOf s (call (l.turn s)).turn.effects ∧
      (x.use (stationOf (l.side s)) call).2.collect.look.2.Mirrors
        (l.settle s (call (l.turn s)).turn) := by
  have halike := alike_collect (x.use (stationOf (l.side s)) call).2
  constructor
  · rw [look, halike.stations, halike.log, h.sent_use s call hn, h.events_use s call hn,
      h.log_use s call]
  · constructor
    case owners => exact h.owners_use s call
    case stations =>
      rw [look, halike.stations, h.stations_use s call hn, used, h.outcome]
      cases s <;> rfl
    case listened =>
      intro s'
      rw [look, isListened, halike.listened, Link.listening_settle]
      exact h.listened s'
    case queues =>
      rw [look, halike.queues, queues_use, h.outcome]
      rfl
    case sent | log => rfl
    case named =>
      intro s'
      rcases s.eq_or_eq_other s' with rfl | rfl
      · rw [Link.pipe_settle_self]
        exact hn
      · rw [Link.pipe_settle_other]
        exact h.named _
    case targets => exact h.targets_settle s _ hn

/-- Where nothing was called, a look tells nothing. -/
theorem look : x.collect.look.1 = l.newsOf s [] ∧ x.collect.look.2.Mirrors l := by
  rw [h.drained.collect]
  constructor
  · rw [Exchange.look, h.sent, h.log, h.stations, Link.newsOf, Effect.commands, Effect.events]
    simp [stationOf]
  · refine ⟨h.owners, ?_, h.listened, h.queues, rfl, rfl, h.named, h.targets⟩
    rw [Exchange.look, h.stations]
    rfl

end Mirrors

/-! ## Steps -/

theorem Answer.ofExcept_map {α β : Type} (f : β → Answer) (g : α → β) (r : Except Fault α) :
    Answer.ofExcept f (r.map g) = .ofExcept (fun a => f (g a)) r := by
  cases r <;> rfl

namespace Mirrors

variable {x y : Exchange} {l : Link} {s : Side}

/-- What is observed of a step: its answer, the pipe it addressed, and the news of the exchange it
leaves. -/
theorem step_of {st : Step} {answer : Answer} {p : Option Side} {l' : Link} {news : News}
    (hperform : x.perform st = ((answer, p.map Side.id), y))
    (hlook : y.collect.look.1 = news ∧ y.collect.look.2.Mirrors l') :
    (x.step st).1 = { answer, pipe := p.map fun s => (l'.side s).pipe, news } ∧
      (x.step st).2.Mirrors l' := by
  unfold Exchange.step
  rw [hperform]
  dsimp only
  rw [hlook.1]
  refine ⟨?_, hlook.2⟩
  cases p with
  | none => rfl
  | some s =>
    rw [Option.map_some, Option.bind_some, hlook.2.station s]
    rfl

/-- A pipe is replaced, and perhaps somebody comes to receive its events. -/
theorem put (h : x.Mirrors l) {e : Endpoint} (hn : Named s e.pipe)
    (hinbox : e.inbox = (l.side s).inbox) {listened : List PipeId}
    (hself : listened.contains s.id = e.listening)
    (hother : listened.contains s.other.id = (l.side s.other).listening) :
    Mirrors { x.putStation (stationOf e) with listened } (l.put s e) := by
  have hput : ∀ s', (l.put s e).side s' = if s' = s then e else l.side s' := fun s' => by
    cases s <;> cases s' <;> rfl
  have hown : ∀ s', ownerOf ((l.put s e).side s') = ownerOf (l.side s') := fun s' => by
    rw [hput]
    split
    · next hs => rw [hs, ownerOf, ownerOf, hinbox]
    · rfl
  constructor
  case owners =>
    exact h.owners.trans (congrArg₂ (fun a b => [a, b]) (hown .a) (hown .b)).symm
  case stations =>
    rw [h.stations_put s hn.id]
    cases s <;> rfl
  case listened =>
    intro s'
    rcases s.eq_or_eq_other s' with rfl | rfl
    · rw [Link.side_put_self]
      exact hself
    · rw [Link.side_put_other]
      exact hother
  case queues => exact h.queues.trans (Link.queues_put l s e).symm
  case sent => exact h.sent
  case log => exact h.log
  case named =>
    intro s'
    rw [hput]
    split
    · next hs => exact hs ▸ hn
    · exact h.named s'
  case targets =>
    intro s'
    rw [hput]
    split
    · next hs =>
      rw [hinbox, hs]
      exact h.targets s
    · exact h.targets s'

/-- What side `s` has in its mailbox goes, or some of it. -/
theorem putInbox (h : x.Mirrors l) (s : Side) (inbox : Mailbox)
    (hsub : ∀ e ∈ inbox.queued.toList, e ∈ (l.side s).inbox.queued.toList) {owners : List Owner}
    (howners : owners = x.owners.set s.owner (ownerOf { l.side s with inbox })) :
    Mirrors { x with owners } (l.put s { l.side s with inbox }) := by
  subst howners
  have hpipe : ∀ s', ((l.put s { l.side s with inbox }).side s').pipe = (l.side s').pipe :=
    fun s' => by cases s <;> cases s' <;> rfl
  constructor
  case owners =>
    dsimp only
    rw [h.owners]
    cases s <;> rfl
  case stations =>
    refine h.stations.trans ?_
    cases s <;> rfl
  case listened =>
    intro s'
    refine (h.listened s').trans ?_
    cases s <;> cases s' <;> rfl
  case queues => exact h.queues.trans (Link.queues_put ..).symm
  case sent => exact h.sent
  case log => exact h.log
  case named =>
    intro s'
    rw [hpipe]
    exact h.named s'
  case targets =>
    intro s' e he
    rcases s.eq_or_eq_other s' with rfl | rfl
    · rw [Link.side_put_self] at he
      exact h.targets _ e (hsub e he)
    · rw [Link.side_put_other] at he
      exact h.targets _ e he

theorem named_process (h : x.Mirrors l) (s : Side) (c : Command) :
    Named s ((l.turn s).process c).turn.pipe :=
  (Turn.reacts_process (t := l.turn s) ⟨rfl, rfl, rfl⟩ c).named (h.named s)

theorem step_call (h : x.Mirrors l) (s : Side) (c : Call) :
    (x.step (Link.Step.call s c).inExchange).1 = l.observe (.call s c) ∧
      (x.step (Link.Step.call s c).inExchange).2.Mirrors (l.step (.call s c)).2 := by
  have hn : Named s ((l.turn s).perform c).turn.pipe :=
    (Turn.reacts_perform (t := l.turn s) ⟨rfl, rfl, rfl⟩ c).named (h.named s)
  refine step_of (y := (x.use (stationOf (l.side s)) (·.perform c)).2) ?_ (h.use s (·.perform c) hn)
  have hresult : (x.use (stationOf (l.side s)) (·.perform c)).1 = ((l.turn s).perform c).result :=
    congrArg Outcome.result (h.outcome s (·.perform c))
  change x.perform (.pipe s.id (.call c)) = ((.ofExcept .reply ((l.turn s).perform c).result, _), _)
  rw [perform, h.station s, ← hresult]
  rfl

theorem step_deliver_of_none (h : x.Mirrors l) (s : Side)
    (hnone : (l.side s).inbox.queued.toList = []) :
    (x.step (Link.Step.deliver s).inExchange).1 = l.observe (.deliver s) ∧
      (x.step (Link.Step.deliver s).inExchange).2.Mirrors (l.step (.deliver s)).2 := by
  have hstep : l.step (.deliver s) = ({}, l) :=
    Link.step_deliver_nil (congrArg (List.map EnvelopeOf.command) hnone)
  have htake : x.takePending s.owner 0 = none := by
    rw [takePending, h.owner s, ownerOf, hnone]
    rfl
  refine step_of (y := x) ?_ ?_
  · change x.perform (.deliver s.owner 0 none) = _
    rw [perform, deliver, htake, Link.answer, Link.addressed, if_pos hnone, hnone]
    rfl
  · rw [hstep]
    exact h.look s

theorem takePending_of_cons (h : x.Mirrors l) (s : Side) {e : Envelope} {rest : List Envelope}
    (hcons : (l.side s).inbox.queued.toList = e :: rest) :
    x.takePending s.owner 0 = some (e, { x with
      owners := x.owners.set s.owner { ownerOf (l.side s) with pending := rest } }) := by
  rw [takePending, h.owner s]
  dsimp only
  rw [show (ownerOf (l.side s)).pending = e :: rest from hcons]
  rfl

/-- To hand a command on is to answer by its view, unless a fault ends it. -/
theorem deliver_of_takePending (h : y.Mirrors l) {e : Envelope} (htarget : e.target = s.id)
    (htake : x.takePending s.owner 0 = some (e, y)) :
    x.perform (.deliver s.owner 0 none) =
      ((.ofExcept (fun _ => .command s.id (Command.view l.queues e.command))
          ((l.turn s).process e.command).result, some s.id),
        (y.use (stationOf (l.side s)) (·.process e.command)).2) := by
  have hresult : (y.process (stationOf (l.side s)) e.command).1 =
      ((l.turn s).process e.command).result :=
    congrArg Outcome.result (h.outcome s (·.process e.command))
  change _ = ((Answer.ofExcept _ _, _), (y.process (stationOf (l.side s)) e.command).2)
  rw [perform, deliver, htake]
  dsimp only
  rw [Option.getD_none, htarget, h.station s, ← hresult, ← h.queues]
  dsimp only
  generalize y.process (stationOf (l.side s)) e.command = o
  obtain ⟨result, z⟩ := o
  cases result <;> rfl

theorem step_deliver (h : x.Mirrors l) (s : Side) :
    (x.step (Link.Step.deliver s).inExchange).1 = l.observe (.deliver s) ∧
      (x.step (Link.Step.deliver s).inExchange).2.Mirrors (l.step (.deliver s)).2 := by
  cases hpop : (l.side s).inbox.queued.pop? with
  | none => exact h.step_deliver_of_none s (Chain.pop?_eq_none hpop)
  | some popped =>
    obtain ⟨e, rest⟩ := popped
    have hcons := Chain.pop?_eq_some hpop
    have hy := h.putInbox s { (l.side s).inbox with queued := rest }
      (fun e' he => by rw [hcons]; exact List.mem_cons_of_mem _ he) rfl
    have htarget : e.target = s.id := h.targets s e (by rw [hcons]; exact List.mem_cons_self)
    have hperform := deliver_of_takePending hy htarget (h.takePending_of_cons s hcons)
    have hlook := hy.use s (·.process e.command) (hy.named_process s e.command)
    have hstep : l.step (.deliver s) =
        (l.put s { l.side s with inbox := { (l.side s).inbox with queued := rest } }).process s
          e.command := by
      have hreceive : l.receive s = (.envelope e,
          l.put s { l.side s with inbox := { (l.side s).inbox with queued := rest } }) := by
        unfold Link.receive Mailbox.receive
        rw [hpop]
      unfold Link.step
      dsimp only
      rw [hreceive]
    refine step_of (hperform.trans ?_) (by rw [hstep]; exact hlook)
    rw [hstep, Link.answer, hcons, Link.addressed, if_neg (by rw [hcons]; simp),
      Link.queues_put, Option.map_some, Link.process]
    dsimp only
    rw [Answer.ofExcept_map]

/-- A step that sets up the pipe of side `s`, or is refused. -/
theorem step_set (h : x.Mirrors l) {st : Link.Step} (set : Except Fault Pipe)
    {listened : List PipeId} {listening : Bool}
    (hrefused : ∀ fault, set = .error fault →
      x.perform st.inExchange = ((.fault fault, some s.id), x) ∧
        l.step st = ({ result := .error fault }, l))
    (hset : ∀ pipe, set = .ok pipe →
      x.perform st.inExchange = ((.done, some s.id),
          { x.putStation { stationOf (l.side s) with pipe } with listened }) ∧
        l.step st = ({}, l.put s { l.side s with pipe, listening }) ∧ Named s pipe)
    (hself : listened.contains s.id = listening)
    (hother : listened.contains s.other.id = (l.side s.other).listening)
    (hanswer : ∀ rep : Link.Report, l.answer rep st = .ofExcept .reply rep.result)
    (haddressed : l.addressed st = some s) (hside : st.side = s) :
    (x.step st.inExchange).1 = l.observe st ∧
      (x.step st.inExchange).2.Mirrors (l.step st).2 := by
  cases set with
  | error fault =>
    obtain ⟨hperform, hstep⟩ := hrefused fault rfl
    refine step_of (y := x) ?_ (by rw [hstep, hside]; exact h.look s)
    rw [hperform, hstep, hanswer, haddressed]
    rfl
  | ok pipe =>
    obtain ⟨hperform, hstep, hn⟩ := hset pipe rfl
    have hput := h.put (e := { l.side s with pipe, listening }) hn rfl hself hother
    refine step_of ?_ (by rw [hstep, hside]; exact hput.look s)
    rw [hperform, hstep, hanswer, haddressed]
    rfl

theorem step_setSink (h : x.Mirrors l) (s : Side) (sink : Sink) :
    (x.step (Link.Step.setSink s sink).inExchange).1 = l.observe (.setSink s sink) ∧
      (x.step (Link.Step.setSink s sink).inExchange).2.Mirrors (l.step (.setSink s sink)).2 := by
  have hother : (x.listened ++ [s.id]).contains s.other.id = (l.side s.other).listening := by
    rw [← h.listened]
    simp [isListened, s.id_ne.symm]
  refine h.step_set ((l.side s).pipe.setSink sink) (fun fault hset => ⟨?_, ?_⟩)
    (fun pipe hset => ?_) (List.contains_iff_mem.2 (by simp)) hother (fun _ => rfl) rfl rfl
  · change x.perform (.pipe s.id (.setSink (some sink))) = _
    simp only [perform, h.station s, performAt, pipe_stationOf, hset]
  · change l.setSink s sink = _
    rw [Link.setSink, hset]
  · have hn : Named s pipe := by
      unfold Pipe.setSink at hset
      split at hset
      · cases hset
      · obtain rfl := Except.ok.inj hset
        exact ⟨(h.named s).id, (h.named s).peer, (h.named s).peerOwner⟩
    refine ⟨?_, ?_, hn⟩
    · change x.perform (.pipe s.id (.setSink (some sink))) = _
      simp only [perform, h.station s, performAt, pipe_stationOf, hset, hn.id]
      rfl
    · change l.setSink s sink = _
      rw [Link.setSink, hset]

theorem step_setIdentity (h : x.Mirrors l) (s : Side) (identity : Identity) :
    (x.step (Link.Step.setIdentity s identity).inExchange).1 =
        l.observe (.setIdentity s identity) ∧
      (x.step (Link.Step.setIdentity s identity).inExchange).2.Mirrors
        (l.step (.setIdentity s identity)).2 := by
  have hbytes : Identity.ofBytes identity.bytes = .ok identity := dif_pos identity.size_le
  refine h.step_set ((l.side s).pipe.setIdentity identity) (fun fault hset => ⟨?_, ?_⟩)
    (fun pipe hset => ⟨?_, ?_, ?_⟩) (h.listened s) (h.listened s.other) (fun _ => rfl) rfl rfl
  · change x.perform (.pipe s.id (.setIdentity identity.bytes)) = _
    simp only [perform, h.station s, performAt, hbytes, pipe_stationOf, hset]
  · change l.setIdentity s identity = _
    rw [Link.setIdentity, hset]
  · change x.perform (.pipe s.id (.setIdentity identity.bytes)) = _
    simp only [perform, h.station s, performAt, hbytes, pipe_stationOf, hset]
    rfl
  · change l.setIdentity s identity = _
    rw [Link.setIdentity, hset]
  · unfold Pipe.setIdentity at hset
    split at hset
    · cases hset
    · obtain rfl := Except.ok.inj hset
      exact ⟨(h.named s).id, (h.named s).peer, (h.named s).peerOwner⟩

theorem step_closeInbox (h : x.Mirrors l) (s : Side) :
    (x.step (Link.Step.closeInbox s).inExchange).1 = l.observe (.closeInbox s) ∧
      (x.step (Link.Step.closeInbox s).inExchange).2.Mirrors (l.step (.closeInbox s)).2 := by
  have hclosed : Mirrors
      { x with owners := x.owners.modify s.owner fun o => { mailbox := o.mailbox.close } }
      (l.closeInbox s) := by
    refine h.putInbox s (l.side s).inbox.close (fun e he => by cases he) ?_
    rw [h.owners]
    cases s <;> rfl
  refine step_of ?_ (hclosed.look s)
  change x.perform (.dropInbox s.owner) = _
  rw [perform, h.mailbox s]
  rfl

/-- **What a step does to a link it does to the exchange that holds the pair,** and an onlooker
sees it. -/
theorem step (h : x.Mirrors l) (st : Link.Step) :
    (x.step st.inExchange).1 = l.observe st ∧
      (x.step st.inExchange).2.Mirrors (l.step st).2 := by
  cases st with
  | call s c => exact h.step_call s c
  | setSink s sink => exact h.step_setSink s sink
  | setIdentity s identity => exact h.step_setIdentity s identity
  | deliver s => exact h.step_deliver s
  | closeInbox s => exact h.step_closeInbox s

/-- A command that came from nowhere does to the exchange what it does to the link, with whatever
queues it names. -/
theorem step_process (h : x.Mirrors l) (s : Side) (c : CommandSketch) :
    (x.step (.pipe s.id (.process c))).1 =
        { answer := .ofExcept .reply (l.process s (x.equip c).1).1.result
          pipe := some ((l.process s (x.equip c).1).2.side s).pipe
          news := (l.process s (x.equip c).1).2.newsOf s (l.process s (x.equip c).1).1.effects } ∧
      (x.step (.pipe s.id (.process c))).2.Mirrors (l.process s (x.equip c).1).2 := by
  have hy : (x.equip c).2.Mirrors l :=
    ⟨h.owners, h.stations, h.listened, h.queues, h.sent, h.log, h.named, h.targets⟩
  refine step_of (p := some s) ?_
    (hy.use s (·.process (x.equip c).1) (h.named_process s (x.equip c).1))
  have hresult : ((x.equip c).2.process (stationOf (l.side s)) (x.equip c).1).1 =
      ((l.turn s).process (x.equip c).1).result :=
    congrArg Outcome.result (hy.outcome s (·.process (x.equip c).1))
  rw [perform, h.station s, Link.process]
  dsimp only [performAt]
  rw [Answer.ofExcept_map, ← hresult]
  rfl

/-- and so is one step after the other. -/
theorem run (h : x.Mirrors l) (steps : List Link.Step) :
    (x.run (steps.map Link.Step.inExchange)).1 = l.observeAll steps ∧
      (x.run (steps.map Link.Step.inExchange)).2.Mirrors (l.run steps).2 := by
  induction steps generalizing x l with
  | nil => exact ⟨rfl, h⟩
  | cons st steps ih =>
    obtain ⟨hobserved, hmirrors⟩ := h.step st
    obtain ⟨hrest, hfinal⟩ := ih hmirrors
    exact ⟨congrArg₂ List.cons hobserved hrest, hfinal⟩

end Mirrors

/-- The plan of a pair between the first two owners, from the plans of its two sides. -/
def planOf (a b : Link.Plan) : PairPlan where
  ownerA := Side.a.owner
  ownerB := Side.b.owner
  optionsA := a.options
  optionsB := b.options
  sinkA := a.sink
  sinkB := b.sink

/-- An exchange with one pair is refused as the link is, -/
theorem create_eq_error_iff {config : Config} {a b : Link.Plan} {e : Error} :
    create config 2 [planOf a b] = .error e ↔ Link.create config a b = .error e := by
  unfold create addPairs addPair Link.create Pipe.pair
  cases config.validate with
  | error e' => exact ⟨fun h => by cases h; rfl, fun h => by cases h; rfl⟩
  | ok u => exact iff_of_false nofun nofun

/-- and otherwise it mirrors the link, once it was looked at. -/
theorem exists_mirrors_of_create {config : Config} {a b : Link.Plan} {x : Exchange}
    (h : create config 2 [planOf a b] = .ok x) :
    ∃ l, Link.create config a b = .ok l ∧ x.look.1.log = l.log.toList ∧ x.look.2.Mirrors l := by
  unfold create addPairs addPair Pipe.pair at h
  unfold Link.create Pipe.pair
  cases hc : config.validate with
  | error e =>
    rw [hc] at h
    cases h
  | ok u =>
    rw [hc] at h
    obtain rfl := Except.ok.inj h
    refine ⟨_, rfl, ?_, rfl, rfl, fun s => ?_, rfl, rfl, rfl, fun s => ?_, fun s e he => ?_⟩
    · rfl
    · cases s <;> cases ha : a.sink <;> cases hb : b.sink <;>
        simp [isListened, addPipe, Exchange.look, planOf, Link.side, Link.newEndpoint, Pipe.ofPlans,
          Side.id, ha, hb]
    · cases s <;> exact ⟨rfl, rfl, rfl⟩
    · cases s <;> cases he

/-- **To work with the only pair of an exchange is to work with a link:** an onlooker sees of it
what the link does, step by step. -/
theorem run_of_create {config : Config} {a b : Link.Plan} {x : Exchange}
    (h : create config 2 [planOf a b] = .ok x) :
    ∃ l, Link.create config a b = .ok l ∧ ∀ steps : List Link.Step,
      (x.look.2.run (steps.map Link.Step.inExchange)).1 = l.observeAll steps ∧
        (x.look.2.run (steps.map Link.Step.inExchange)).2.Mirrors (l.run steps).2 := by
  obtain ⟨l, hl, -, hx⟩ := exists_mirrors_of_create h
  exact ⟨l, hl, hx.run⟩

end Exchange

end MessagePipe
