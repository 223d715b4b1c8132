import MessagePipe.Exchange.Step
import MessagePipe.Proofs.Turn
import MessagePipe.Proofs.Wiring

/-!
# What a step changes of an exchange

An exchange lets an owner work with a pipe by `Exchange.use`, and moves what arrived to the pending
commands by `Exchange.collect`. Each touches several parts: the stations of pipes, the mailboxes of
owners, what was sent, and the log. This module says part by part what becomes of an exchange, so
that the two results about exchanges, `Proofs/Settling` and `Proofs/Mirror`, open neither.

* `Owner.collected`, `Owner.told`: the owner once all that is in its mailbox is pending, and once
  commands for a pipe arrived, unless its mailbox is closed.
* `Owner.collected_applyAll`: the effects of a call tell the owner what the call sent, in order and
  nothing else.
* `Exchange.owners_collect`, `Exchange.sent_collect`: everything that arrived is pending after a
  step, and what an onlooker is told of it is all of it, owner by owner. What is not about arrivals
  stays as it is (`Exchange.alike_collect`).
* `Exchange.Drained`: nothing is on its way. It is so after every step, and then there is nothing to
  collect.
* `Exchange.owners_collect_use`: what a pipe sends to its peer is pending after a step.
  `Exchange.arrived_use` has the view an onlooker gets of it.
* `Exchange.stations_use`, `Exchange.queues_use`: the pipe and the queues a call leaves.

All of it holds for any call, given as a function of a turn, so no operation of a pipe is opened.

Premise, where it is named: nothing was on its way before the call.

Out of scope: how the steps of a whole exchange are made of these, which is in the two modules
named.
-/

namespace MessagePipe

namespace Owner

/-- The owner once all that is in its mailbox is pending. -/
def collected (o : Owner) : Owner :=
  { mailbox := { o.mailbox with queued := .empty }
    pending := o.pending ++ o.mailbox.queued.toList }

/-- The owner once commands for a pipe arrived, unless its mailbox is closed. -/
def told (target : PipeId) (cs : List Command) (o : Owner) : Owner :=
  { o with pending := o.pending ++
      if o.mailbox.receiving then cs.map fun command => { target, command } else [] }

theorem collected_of_empty {o : Owner} (h : o.mailbox.queued = .empty) : o.collected = o := by
  rw [collected, h, Chain.toList_empty, List.append_nil, ← h]

/-- **The effects of a call tell the owner what the call sent.** -/
theorem collected_applyAll {o : Owner} (h : o.mailbox.queued = .empty) {u : Surroundings}
    (hu : u.mailbox = o.mailbox) (p : Pipe) (es : List Effect) :
    collected { o with mailbox := (u.applyAll p es).mailbox } =
      o.told p.peer (Effect.commands es) := by
  cases hr : o.mailbox.receiving with
  | false =>
    rw [Surroundings.mailbox_applyAll_of_closed u p es (by rw [hu, hr]), hu, told, hr,
      if_neg Bool.false_ne_true, List.append_nil]
    exact collected_of_empty h
  | true =>
    have hqueued := u.queued_applyAll p es (by rw [hu, hr])
    have hhandles := u.handles_applyAll p es
    have hreceiving := u.receiving_applyAll p es
    rw [hu, h, Chain.toList_empty, List.nil_append] at hqueued
    rw [hu] at hhandles hreceiving
    rw [collected, told, hr, if_pos rfl, hqueued]
    dsimp only
    rw [hhandles, hreceiving, ← h]

end Owner

namespace Exchange

variable {x y : Exchange} {s : Station} {o : OwnerId}

/-! ## What arrived is collected -/

/-- Two exchanges differ in nothing but what arrived, and where it is. -/
structure Alike (x y : Exchange) : Prop where
  stations : y.stations = x.stations
  listened : y.listened = x.listened
  queues : y.queues = x.queues
  log : y.log = x.log

theorem Alike.trans {z : Exchange} (h : Alike x y) (h' : Alike y z) : Alike x z :=
  ⟨h'.stations.trans h.stations, h'.listened.trans h.listened, h'.queues.trans h.queues,
    h'.log.trans h.log⟩

theorem alike_collectAt (x : Exchange) (o : OwnerId) : Alike x (x.collectAt o) := by
  unfold collectAt
  split <;> exact ⟨rfl, rfl, rfl, rfl⟩

theorem alike_foldl_collectAt (x : Exchange) (os : List OwnerId) :
    Alike x (os.foldl collectAt x) := by
  induction os generalizing x with
  | nil => exact ⟨rfl, rfl, rfl, rfl⟩
  | cons o os ih => exact (x.alike_collectAt o).trans (ih _)

theorem alike_collect (x : Exchange) : Alike x x.collect :=
  x.alike_foldl_collectAt _

theorem mailbox_of_getElem? {owner : Owner} (h : x.owners[o]? = some owner) :
    x.mailbox o = owner.mailbox := by
  rw [mailbox, List.getD_eq_getElem?_getD, h]
  rfl

theorem modify_congr {owners : List Owner} {f g : Owner → Owner}
    (h : ∀ owner, owners[o]? = some owner → f owner = g owner) :
    owners.modify o f = owners.modify o g := by
  refine List.ext_getElem? fun i => ?_
  rw [List.getElem?_modify, List.getElem?_modify]
  cases hi : owners[i]? with
  | none => rfl
  | some owner =>
    by_cases ho : o = i
    · subst ho
      simp [h owner hi]
    · simp [ho]

theorem owners_collectAt (x : Exchange) (o : OwnerId) :
    (x.collectAt o).owners = x.owners.modify o Owner.collected := by
  unfold collectAt
  split
  · next m hm =>
    -- An empty mailbox is left as it is, which is to empty it.
    have hnone : (x.mailbox o).queued.toList = [] := congrArg Prod.fst hm
    refine (List.modify_id o x.owners).symm.trans (modify_congr fun owner h => ?_)
    rw [mailbox_of_getElem? h] at hnone
    rw [Owner.collected, hnone, List.append_nil, ← Chain.eq_empty hnone]
    rfl
  · next arrived m hne hm =>
    refine modify_congr fun owner h => ?_
    rw [mailbox_of_getElem? h] at hm
    obtain ⟨rfl, rfl⟩ := Prod.mk.inj hm
    rfl

/-- The owners once what arrived at the first `n` of them is collected. -/
theorem owners_foldl_collectAt (x : Exchange) (n i : Nat) :
    ((List.range n).foldl collectAt x).owners[i]? =
      if i < n then x.owners[i]?.map Owner.collected else x.owners[i]? := by
  induction n with
  | zero => rfl
  | succ n ih =>
    rw [List.range_succ, List.foldl_append, List.foldl_cons, List.foldl_nil, owners_collectAt,
      List.getElem?_modify, ih]
    rcases Nat.lt_trichotomy i n with hi | rfl | hi
    · rw [if_pos hi, if_pos (Nat.lt_succ_of_lt hi)]
      simp [Nat.ne_of_gt hi]
    · simp
    · rw [if_neg (Nat.not_lt_of_gt hi), if_neg (Nat.not_lt_of_ge hi)]
      simp [Nat.ne_of_lt hi]

/-- **Everything that arrived is pending after a step.** -/
theorem owners_collect (x : Exchange) : x.collect.owners = x.owners.map Owner.collected := by
  refine List.ext_getElem? fun i => ?_
  rw [collect, owners_foldl_collectAt, List.getElem?_map]
  split
  · rfl
  · next hi => rw [List.getElem?_eq_none (Nat.le_of_not_lt hi)]; rfl

/-- What arrived at an owner, as an onlooker is told of it. -/
def arrived (x : Exchange) (o : OwnerId) : List (OwnerId × EnvelopeView) :=
  (x.mailbox o).queued.toList.map fun e => (o, Envelope.view x.queues e)

theorem sent_collectAt (x : Exchange) (o : OwnerId) :
    (x.collectAt o).sent.toList = x.sent.toList ++ x.arrived o := by
  unfold collectAt
  split
  · next m hm =>
    have hnone : (x.mailbox o).queued.toList = [] := congrArg Prod.fst hm
    rw [arrived, hnone, List.map_nil, List.append_nil]
  · next envelopes m hne hm =>
    have hall : (x.mailbox o).queued.toList = envelopes := congrArg Prod.fst hm
    rw [arrived, hall]
    exact Array.toList_appendList ..

/-- **What is told of what arrived is all of it, owner by owner.** -/
theorem sent_collect (x : Exchange) :
    x.collect.sent.toList = x.sent.toList ++ (List.range x.owners.length).flatMap x.arrived := by
  have hfold : ∀ n, ((List.range n).foldl collectAt x).sent.toList =
      x.sent.toList ++ (List.range n).flatMap x.arrived := by
    intro n
    induction n with
    | zero => exact (List.append_nil _).symm
    | succ n ih =>
      -- The mailbox of the next owner is as it was, and so are the queues.
      have harrived : ((List.range n).foldl collectAt x).arrived n = x.arrived n := by
        rw [arrived, arrived, (x.alike_foldl_collectAt _).queues, mailbox, mailbox,
          List.getD_eq_getElem?_getD, List.getD_eq_getElem?_getD, owners_foldl_collectAt,
          if_neg (Nat.lt_irrefl n)]
      rw [List.range_succ, List.foldl_append, List.foldl_cons, List.foldl_nil, sent_collectAt, ih,
        harrived, List.flatMap_append, List.flatMap_singleton, List.append_assoc]
  exact hfold _

/-- Nothing is on its way: all that arrived is pending. -/
def Drained (x : Exchange) : Prop :=
  ∀ owner ∈ x.owners, owner.mailbox.queued = .empty

theorem drained_collect (x : Exchange) : x.collect.Drained := by
  intro owner h
  rw [owners_collect, List.mem_map] at h
  obtain ⟨owner, -, rfl⟩ := h
  rfl

theorem Drained.queued (hx : x.Drained) (o : OwnerId) : (x.mailbox o).queued = .empty := by
  rw [mailbox, List.getD_eq_getElem?_getD]
  cases h : x.owners[o]? with
  | none => rfl
  | some owner => exact hx owner (List.mem_of_getElem? h)

/-- Where nothing is on its way, there is nothing to collect. -/
theorem Drained.collect (hx : x.Drained) : x.collect = x := by
  have hcollectAt : ∀ o, x.collectAt o = x := fun o => by
    unfold collectAt Mailbox.drain
    rw [hx.queued]
    rfl
  have hfold : ∀ os : List OwnerId, os.foldl collectAt x = x := fun os => by
    induction os with
    | nil => rfl
    | cons o os ih => rw [List.foldl_cons, hcollectAt, ih]
  exact hfold _

/-! ## A pipe is used -/

variable {α : Type} (call : Turn → Outcome α)

/-- What a call makes of the pipe of a station. -/
def outcome (x : Exchange) (s : Station) : Outcome α :=
  call { pipe := s.pipe, queues := x.queues }

/-- The station of a pipe after a call. -/
def used (x : Exchange) (s : Station) : Station where
  pipe := (x.outcome call s).turn.pipe
  events := s.events ++ (x.outcome call s).turn.events.filter
    ((x.outcome call s).turn.pipe.passes (x.isListened s.pipe.id))

theorem stations_use (x : Exchange) (s : Station) :
    (x.use s call).2.stations = (x.putStation (x.used call s)).stations := by
  unfold use
  dsimp only
  rw [Surroundings.events_applyAll]
  rfl

theorem queues_use (x : Exchange) (s : Station) :
    (x.use s call).2.queues = (x.outcome call s).turn.queues := rfl

theorem length_owners_use (x : Exchange) (s : Station) :
    (x.use s call).2.owners.length = x.owners.length :=
  List.length_modify ..

theorem mailbox_use (x : Exchange) (s : Station) (o : OwnerId) :
    (x.use s call).2.mailbox o =
      ((x.owners.modify s.pipe.peerOwner fun owner =>
        { owner with mailbox := (Surroundings.applyAll
          { mailbox := x.mailbox s.pipe.peerOwner, listening := x.isListened s.pipe.id,
            events := s.events, log := x.log }
          (x.outcome call s).turn.pipe (x.outcome call s).turn.effects).mailbox }).getD o
        {}).mailbox := rfl

/-- Nothing arrives anywhere but at the owner of the peer, -/
theorem arrived_use_of_ne (hx : x.Drained) (ho : s.pipe.peerOwner ≠ o) :
    (x.use s call).2.arrived o = [] := by
  have hmailbox : (x.use s call).2.mailbox o = x.mailbox o := by
    rw [mailbox_use, List.getD_eq_getElem?_getD, List.getElem?_modify_ne _ _ ho, mailbox,
      List.getD_eq_getElem?_getD]
  rw [arrived, hmailbox, hx.queued]
  rfl

/-- and there what the pipe sends, unless the mailbox is closed. -/
theorem arrived_use (hx : x.Drained) {owner : Owner}
    (h : x.owners[s.pipe.peerOwner]? = some owner) :
    (x.use s call).2.arrived s.pipe.peerOwner =
      if owner.mailbox.receiving then
        (x.outcome call s).turn.posted.map fun command =>
          (s.pipe.peerOwner, Envelope.view (x.outcome call s).turn.queues
            { target := (x.outcome call s).turn.pipe.peer, command })
      else [] := by
  have hempty := hx owner (List.mem_of_getElem? h)
  have hmailbox := mailbox_use call x s s.pipe.peerOwner
  rw [List.getD_eq_getElem?_getD, List.getElem?_modify_eq, h, Option.map_eq_map, Option.map_some,
    Option.getD_some, mailbox_of_getElem? h] at hmailbox
  rw [arrived, hmailbox]
  cases hr : owner.mailbox.receiving with
  | false =>
    rw [Surroundings.mailbox_applyAll_of_closed _ _ _ hr, hempty]
    rfl
  | true =>
    rw [Surroundings.queued_applyAll _ _ _ hr, hempty, if_pos rfl, Chain.toList_empty,
      List.nil_append, List.map_map]
    rfl

/-- **What a pipe sends to its peer is pending after a step.** -/
theorem owners_collect_use (hx : x.Drained) (s : Station) :
    (x.use s call).2.collect.owners = x.owners.modify s.pipe.peerOwner
      (.told (x.outcome call s).turn.pipe.peer (x.outcome call s).turn.posted) := by
  rw [owners_collect]
  refine List.ext_getElem? fun i => ?_
  have howners : (x.use s call).2.owners = x.owners.modify s.pipe.peerOwner fun owner =>
    { owner with mailbox := (Surroundings.applyAll
      { mailbox := x.mailbox s.pipe.peerOwner, listening := x.isListened s.pipe.id,
        events := s.events, log := x.log }
      (x.outcome call s).turn.pipe (x.outcome call s).turn.effects).mailbox } := rfl
  rw [howners, List.getElem?_map, List.getElem?_modify, List.getElem?_modify]
  cases hi : x.owners[i]? with
  | none => rfl
  | some owner =>
    have hempty := hx owner (List.mem_of_getElem? hi)
    by_cases ho : s.pipe.peerOwner = i
    · subst ho
      have := Owner.collected_applyAll hempty (u :=
        { mailbox := x.mailbox s.pipe.peerOwner, listening := x.isListened s.pipe.id,
          events := s.events, log := x.log }) (mailbox_of_getElem? hi)
        (x.outcome call s).turn.pipe (x.outcome call s).turn.effects
      simp only [Option.map_eq_map, Option.map_some, if_true]
      exact congrArg some this
    · simp [ho, Owner.collected_of_empty hempty]

end Exchange

end MessagePipe
