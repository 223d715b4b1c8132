import MessagePipe.Proofs.Backlog
import MessagePipe.Proofs.Stations

/-!
# An exchange comes to rest

An owner loop hands each delivered command to its pipe (§6 of the specification), and the answers
are handed on in turn, owner by owner, until there are none. `Exchange.pump` is that loop for any
number of owners and pairs. It is given the backlog of the exchange as a bound, and here it is shown
that it needs no more.

* `Exchange.backlog_eq`: the backlog is that of the commands pending (`Proofs/Backlog`), and of the
  pipes that will answer an acknowledgment.
* `Exchange.Settled`: nothing is on its way, and no two pipes have one number. `Settled.of_create`
  and `Settled.step` say that it holds at the start and after every step; for that, `ids_perform`
  goes through all steps, of which none makes a pipe.
* `backlog_process`: a command that a pipe takes pays for what the pipe sends. The state may be any,
  and the command may have been made up or been handed to another pipe.
* `pumpFrom_cases`: how pumping goes on: nobody has a command, a fault ends it, or it goes on with a
  smaller backlog.
* `isIdle_of_pump`, `pump_eq`: so pumping hands on all commands unless a fault ends it, and a larger
  bound gives the same.
* `Reached.pump_settles`: the two together, for whatever was done to an exchange.

Premise of the last: the exchange was made by `create` and came to where it is by steps. Nothing is
asked of the commands.

Out of scope: which state an exchange comes to rest in. For one pair see `Proofs/Confluence`, by way
of `Proofs/Mirror`.
-/

namespace MessagePipe.Exchange

variable {x y : Exchange} {s : Station} {o : OwnerId}

/-! ## What is pending -/

/-- The commands that owners have not handed on. -/
def commandsOf (owners : List Owner) : List Command :=
  (owners.flatMap Owner.pending).map EnvelopeOf.command

theorem commandsOf_append (xs ys : List Owner) :
    commandsOf (xs ++ ys) = commandsOf xs ++ commandsOf ys := by
  rw [commandsOf, List.flatMap_append, List.map_append]
  rfl

theorem commandsOf_singleton (owner : Owner) :
    commandsOf [owner] = owner.pending.map EnvelopeOf.command := by
  rw [commandsOf, List.flatMap_singleton]

theorem weight_eq (e : Envelope) : weight e = backlogOfAll [e.command] := by
  unfold weight
  cases e.command <;> rfl

/-- The backlog of an exchange is that of its commands, and of the pipes that will answer an
acknowledgment. -/
theorem backlog_eq (x : Exchange) :
    x.backlog = backlogOfAll (commandsOf x.owners) +
      x.stations.countP fun s => s.pipe.state.answersAck := by
  have hfold : ∀ (es : List Envelope) (n : Nat), es.foldl (fun n e => n + weight e) n =
      backlogOfAll (es.map EnvelopeOf.command) + n := by
    intro es
    induction es with
    | nil => exact fun n => (Nat.zero_add n).symm
    | cons e es ih =>
      intro n
      have happend := backlogOfAll_append [e.command] (es.map EnvelopeOf.command)
      rw [List.singleton_append] at happend
      rw [List.foldl_cons, ih, weight_eq, List.map_cons]
      omega
  exact hfold _ _

/-- Of owners one of whom is replaced, the backlog changes by his. -/
theorem backlogOfAll_modify {owners : List Owner} {owner : Owner} (h : owners[o]? = some owner)
    (f : Owner → Owner) :
    backlogOfAll (commandsOf (owners.modify o f)) + backlogOfAll (commandsOf [owner]) =
      backlogOfAll (commandsOf owners) + backlogOfAll (commandsOf [f owner]) := by
  obtain ⟨ho, -⟩ := List.getElem?_eq_some_iff.1 h
  obtain ⟨before, owner', after, rfl, rfl, hmodify⟩ := List.exists_of_modify f ho
  obtain rfl : owner' = owner := by simpa using h
  have hsplit : ∀ u : Owner, backlogOfAll (commandsOf (before ++ u :: after)) =
      backlogOfAll (commandsOf before) + (backlogOfAll (commandsOf [u]) +
        backlogOfAll (commandsOf after)) := fun u => by
    rw [commandsOf_append, backlogOfAll_append, ← List.singleton_append, commandsOf_append,
      backlogOfAll_append]
  rw [hmodify, hsplit, hsplit]
  omega

/-- Commands that arrive add their backlog, or nothing. -/
theorem backlogOfAll_told_le (owners : List Owner) (o : OwnerId) (target : PipeId)
    (cs : List Command) :
    backlogOfAll (commandsOf (owners.modify o (.told target cs))) ≤
      backlogOfAll (commandsOf owners) + backlogOfAll cs := by
  cases h : owners[o]? with
  | none =>
    rw [List.modify_eq_self (List.getElem?_eq_none_iff.1 h)]
    exact Nat.le_add_right ..
  | some owner =>
    have hmodify := backlogOfAll_modify h (.told target cs)
    have htold : backlogOfAll (commandsOf [owner.told target cs]) ≤
        backlogOfAll (commandsOf [owner]) + backlogOfAll cs := by
      rw [commandsOf_singleton, commandsOf_singleton, Owner.told, List.map_append,
        backlogOfAll_append]
      refine Nat.add_le_add_left ?_ _
      split
      · rw [List.map_map]
        exact (congrArg backlogOfAll (List.map_id cs)).le
      · exact Nat.zero_le _
    omega

/-! ## The pipes that are there -/

/-- The numbers of the pipes that are there. -/
def ids (x : Exchange) : List PipeId :=
  x.stations.map fun s => s.pipe.id

theorem ids_putStation (x : Exchange) (s : Station) : (x.putStation s).ids = x.ids := by
  rw [ids, putStation, List.map_map]
  refine List.map_congr_left fun s' _ => ?_
  dsimp only [Function.comp_apply]
  split
  · next h => exact h.symm
  · rfl

/-- Of pipes one of which is replaced, the number that are to be counted changes by it. -/
theorem countP_putStation (hx : x.ids.Nodup) (hs : s ∈ x.stations) (s' : Station)
    (hid : s'.pipe.id = s.pipe.id) (p : Station → Bool) :
    (x.putStation s').stations.countP p + (p s).toNat =
      x.stations.countP p + (p s').toNat := by
  unfold putStation
  unfold ids at hx
  dsimp only
  generalize x.stations = stations at hx hs ⊢
  induction stations with
  | nil => cases hs
  | cons t stations ih =>
    rw [List.map_cons, List.nodup_cons] at hx
    rw [List.map_cons, List.countP_cons, List.countP_cons]
    by_cases ht : t.pipe.id = s'.pipe.id
    · -- No pipe further on has the number of this one.
      have hrest : ∀ u ∈ stations, u.pipe.id ≠ s'.pipe.id := fun u hu he =>
        hx.1 (List.mem_map.2 ⟨u, hu, he.trans ht.symm⟩)
      have hst : s = t := by
        rcases List.mem_cons.1 hs with hs | hs
        · exact hs
        · exact absurd hid.symm (hrest s hs)
      have hmap : (stations.map fun u => if u.pipe.id = s'.pipe.id then s' else u) = stations :=
        (List.map_congr_left fun u hu => if_neg (hrest u hu)).trans (List.map_id' _)
      rw [if_pos ht, hmap, hst]
      cases p t <;> cases p s' <;> simp
    · rw [if_neg ht]
      have hs : s ∈ stations := by
        rcases List.mem_cons.1 hs with rfl | hs
        · exact absurd hid.symm ht
        · exact hs
      have := ih hx.2 hs
      omega

/-! ## Handing commands on -/

/-- Nothing is on its way, and no two pipes have one number. -/
structure Settled (x : Exchange) : Prop where
  drained : x.Drained
  distinct : x.ids.Nodup

theorem ids_collect (x : Exchange) : x.collect.ids = x.ids := by
  rw [ids, x.alike_collect.stations]
  rfl

theorem ids_use {α : Type} (call : Turn → Outcome α) (x : Exchange) (s : Station) :
    (x.use s call).2.ids = x.ids := by
  rw [ids, stations_use]
  exact ids_putStation ..

theorem Settled.use {α : Type} (h : x.Settled) (call : Turn → Outcome α) (s : Station) :
    (x.use s call).2.collect.Settled :=
  ⟨drained_collect _, by rw [ids_collect, ids_use]; exact h.distinct⟩

theorem mem_of_station? {p : PipeId} (h : x.station? p = some s) : s ∈ x.stations :=
  List.mem_of_find?_eq_some h

/-- **A command that a pipe takes pays for what the pipe sends.** -/
theorem backlog_process (hx : x.Settled) (hs : s ∈ x.stations) (c : Command) :
    (x.process s c).2.collect.backlog < x.backlog + backlogOfAll [c] := by
  have hreacts : Reacts s.pipe x.queues.view (.command c)
      ((x.outcome (·.process c) s).map fun _ => Reply.done).reaction :=
    Turn.reacts_process (t := { pipe := s.pipe, queues := x.queues }) ⟨rfl, rfl, rfl⟩ c
  have hlt : backlogOfAll (x.outcome (·.process c) s).turn.posted +
      (x.used (·.process c) s).pipe.state.answersAck.toNat <
        backlogOfAll [c] + s.pipe.state.answersAck.toNat := hreacts.backlog_lt
  have hid : (x.used (·.process c) s).pipe.id = s.pipe.id := hreacts.id
  have howners := x.owners_collect_use (·.process c) hx.drained s
  have hstations := x.stations_use (·.process c) s
  have hcount := countP_putStation hx.distinct hs (x.used (·.process c) s) hid
    fun s => s.pipe.state.answersAck
  have htold := backlogOfAll_told_le x.owners s.pipe.peerOwner
    (x.outcome (·.process c) s).turn.pipe.peer (x.outcome (·.process c) s).turn.posted
  rw [backlog_eq, backlog_eq, process, howners, (alike_collect _).stations, hstations]
  omega

/-- A command that is taken is no longer pending. -/
theorem backlog_takePending {i : Nat} {e : Envelope} (h : x.takePending o i = some (e, y)) :
    y.backlog + backlogOfAll [e.command] = x.backlog ∧ (x.Settled → y.Settled) := by
  unfold takePending at h
  split at h
  · cases h
  · next owner howner =>
    split at h
    · cases h
    · next e' he =>
      obtain ⟨rfl, rfl⟩ := Prod.mk.inj (Option.some.inj h)
      obtain ⟨hi, rfl⟩ := List.getElem?_eq_some_iff.1 he
      constructor
      · have hmodify := backlogOfAll_modify howner
          fun _ => { owner with pending := owner.pending.eraseIdx i }
        have hperm :=
          backlogOfAll_perm ((List.getElem_cons_eraseIdx_perm hi).map EnvelopeOf.command)
        have happend := backlogOfAll_append [owner.pending[i].command]
          ((owner.pending.eraseIdx i).map EnvelopeOf.command)
        rw [commandsOf_singleton, commandsOf_singleton] at hmodify
        rw [List.map_cons] at hperm
        rw [List.singleton_append] at happend
        rw [backlog_eq, backlog_eq, List.set_eq_modify]
        dsimp only at hmodify ⊢
        omega
      · intro hx
        refine ⟨fun owner' h' => ?_, hx.distinct⟩
        rcases List.mem_or_eq_of_mem_set h' with h' | rfl
        · exact hx.drained _ h'
        · exact hx.drained owner (List.mem_of_getElem? howner)

/-- Nobody has a command to hand on. -/
def IsIdle (x : Exchange) : Prop :=
  ∀ owner ∈ x.owners, owner.pending = []

theorem isIdle_of_backlog (h : x.backlog = 0) : x.IsIdle := by
  intro owner hm
  by_contra hne
  obtain ⟨e, es, hp⟩ := List.exists_cons_of_ne_nil hne
  have he : e.command ∈ commandsOf x.owners :=
    List.mem_map.2 ⟨e, List.mem_flatMap.2 ⟨owner, hm, by rw [hp]; exact List.mem_cons_self⟩, rfl⟩
  obtain ⟨c, cs, hc⟩ := List.exists_cons_of_ne_nil (List.ne_nil_of_mem he)
  have hpos := backlogOfAll_pos c cs
  rw [backlog_eq, hc] at h
  omega

/-- Whoever is next has a command to hand on, and if nobody is, nobody has one. -/
theorem nextOwner?_cases (x : Exchange) (o : OwnerId) :
    (x.nextOwner? o = none ∧ x.IsIdle) ∨
      ∃ o' e y, x.nextOwner? o = some o' ∧ x.takePending o' 0 = some (e, y) := by
  cases h : x.nextOwner? o with
  | none =>
    refine .inl ⟨rfl, fun owner hm => ?_⟩
    obtain ⟨i, hi, rfl⟩ := List.getElem_of_mem hm
    have hall := List.find?_eq_none.1 h i (by
      rw [List.mem_append, List.mem_range'_1, List.mem_range]
      omega)
    simpa [List.getD_eq_getElem?_getD, List.getElem?_eq_getElem hi] using hall
  | some o' =>
    have hbusy := List.find?_some h
    cases howner : x.owners[o']? with
    | none => simp [List.getD_eq_getElem?_getD, howner] at hbusy
    | some owner =>
      cases hp : owner.pending with
      | nil => simp [List.getD_eq_getElem?_getD, howner, hp] at hbusy
      | cons e es =>
        have htake : (x.takePending o' 0).isSome = true := by
          unfold takePending
          rw [howner]
          dsimp only
          rw [hp]
          rfl
        obtain ⟨⟨e, y⟩, htake⟩ := Option.isSome_iff_exists.1 htake
        exact .inr ⟨o', e, y, rfl, htake⟩

/-- How pumping goes on: nobody has a command, a fault ends it, or it goes on with a smaller
backlog. -/
theorem pumpFrom_cases (hx : x.Settled) (o : OwnerId) (handed : Array (PipeId × String)) :
    (x.IsIdle ∧ ∀ n, pumpFrom n o handed x = (.ok handed, x)) ∨
      (0 < x.backlog ∧ ∃ fault y, ∀ n, pumpFrom (n + 1) o handed x = (.error fault, y)) ∨
      ∃ o' handed' y, y.Settled ∧ y.backlog < x.backlog ∧
        ∀ n, pumpFrom (n + 1) o handed x = pumpFrom n o' handed' y := by
  obtain ⟨hnext, hidle⟩ | ⟨o', e, y, hnext, htake⟩ := x.nextOwner?_cases o
  · refine .inl ⟨hidle, fun n => ?_⟩
    cases n with
    | zero => rfl
    | succ n => rw [pumpFrom, hnext]
  refine .inr ?_
  obtain ⟨hpaid, hsettled⟩ := backlog_takePending htake
  have hy := hsettled hx
  have hpos := backlogOfAll_pos e.command []
  cases hs : y.station? e.target with
  | none =>
    have hsame : y.collect.backlog = y.backlog := by
      rw [hy.drained.collect]
    refine .inr ⟨o', handed.push (e.target, e.command.name), y.collect,
      ⟨drained_collect y, by rw [ids_collect]; exact hy.distinct⟩, by omega, fun n => ?_⟩
    simp only [pumpFrom, hnext, htake, hs]
  | some s =>
    have hlt := backlog_process hy (mem_of_station? hs) e.command
    have hz := hy.use (·.process e.command) s
    change (y.process s e.command).2.collect.Settled at hz
    cases hp : y.process s e.command with
    | mk result z =>
      rw [hp] at hlt hz
      replace hlt : z.collect.backlog < _ := hlt
      cases result with
      | error fault =>
        exact .inl ⟨by omega, fault, z, fun n => by simp only [pumpFrom, hnext, htake, hs, hp]⟩
      | ok u =>
        exact .inr ⟨o', handed.push (e.target, e.command.name), z.collect, hz, by omega, fun n => by
          simp only [pumpFrom, hnext, htake, hs, hp]⟩

/-- **Where as many commands may be handed on as the backlog says, none is left in the end,** unless
a fault ended it. -/
theorem isIdle_of_pumpFrom {n : Nat} {handed handed' : Array (PipeId × String)} (hx : x.Settled)
    (hn : x.backlog ≤ n) (h : pumpFrom n o handed x = (.ok handed', y)) : y.IsIdle := by
  induction n generalizing x o handed with
  | zero =>
    rw [pumpFrom] at h
    cases h
    exact isIdle_of_backlog (Nat.le_zero.1 hn)
  | succ n ih =>
    obtain ⟨hidle, hpump⟩ | ⟨-, fault, z, hpump⟩ | ⟨o', handed', z, hz, hlt, hpump⟩ :=
      pumpFrom_cases hx o handed
    · rw [hpump] at h
      cases h
      exact hidle
    · rw [hpump] at h
      cases h
    · rw [hpump] at h
      exact ih hz (by omega) h

/-- To allow for more changes nothing. -/
theorem pumpFrom_add {n : Nat} {handed : Array (PipeId × String)} (hx : x.Settled)
    (hn : x.backlog ≤ n) (k : Nat) : pumpFrom (n + k) o handed x = pumpFrom n o handed x := by
  induction n generalizing x o handed with
  | zero =>
    obtain ⟨-, hpump⟩ | ⟨hpos, -⟩ | ⟨_, _, _, _, hlt, _⟩ := pumpFrom_cases hx o handed
    · rw [hpump, hpump]
    · exact absurd hpos (Nat.not_lt_of_ge hn)
    · exact absurd hlt (Nat.not_lt_of_ge (hn.trans (Nat.zero_le _)))
  | succ n ih =>
    rw [Nat.succ_add]
    obtain ⟨hidle, hpump⟩ | ⟨-, fault, z, hpump⟩ | ⟨o', handed', z, hz, hlt, hpump⟩ :=
      pumpFrom_cases hx o handed
    · rw [hpump, hpump]
    · rw [hpump, hpump]
    · rw [hpump, hpump]
      exact ih hz (by omega)

/-- **Pumping hands on all commands,** unless a fault ends it. -/
theorem isIdle_of_pump {handed : Array (PipeId × String)} (hx : x.Settled)
    (h : x.pump = (.ok handed, y)) : y.IsIdle :=
  isIdle_of_pumpFrom hx (Nat.le_refl _) h

/-- and it never stops for the bound it is given. -/
theorem pump_eq {n : Nat} (hx : x.Settled) (hn : x.backlog ≤ n) : x.pump = pumpFrom n 0 #[] x := by
  obtain ⟨k, rfl⟩ := Nat.exists_eq_add_of_le hn
  exact (pumpFrom_add hx (Nat.le_refl _) k).symm

/-! ## Every exchange is settled between steps -/

theorem ids_takePending {i : Nat} {e : Envelope} (h : x.takePending o i = some (e, y)) :
    y.ids = x.ids := by
  unfold takePending at h
  split at h
  · cases h
  · split at h
    · cases h
    · obtain ⟨-, rfl⟩ := Prod.mk.inj (Option.some.inj h)
      rfl

theorem ids_call (x : Exchange) (p : PipeId) (c : Call) : (x.call p c).2.ids = x.ids := by
  unfold call
  split
  · rfl
  · next s _ => exact ids_use (·.perform c) x s

theorem ids_writeFrom (p : PipeId) (stem : String) (more : Bool) (n i : Nat) (x : Exchange) :
    (writeFrom p stem more n i x).2.ids = x.ids := by
  induction n generalizing i x with
  | zero => rfl
  | succ n ih =>
    unfold writeFrom
    generalize (Frame.ofBytes (stem ++ toString i).toUTF8).setMore more = f
    have hcall := x.ids_call p (.write f)
    dsimp only
    split
    · next heq =>
      rw [heq] at hcall
      exact (ih ..).trans hcall
    · next heq =>
      rw [heq] at hcall
      exact hcall
    · next heq =>
      rw [heq] at hcall
      exact hcall

theorem ids_readFrom (p : PipeId) (n : Nat) (frames : List Frame) (x : Exchange) :
    (readFrom p n frames x).2.ids = x.ids := by
  induction n generalizing frames x with
  | zero => rfl
  | succ n ih =>
    have hcall := x.ids_call p .read
    unfold readFrom
    split
    · next heq =>
      rw [heq] at hcall
      exact (ih ..).trans hcall
    · next heq =>
      rw [heq] at hcall
      exact hcall
    · next heq =>
      rw [heq] at hcall
      exact hcall

theorem ids_pumpFrom (n : Nat) (o : OwnerId) (handed : Array (PipeId × String)) (x : Exchange) :
    (pumpFrom n o handed x).2.ids = x.ids := by
  induction n generalizing o handed x with
  | zero => rfl
  | succ n ih =>
    unfold pumpFrom
    split
    · rfl
    · split
      · rfl
      · next e y htake =>
        rw [← ids_takePending htake]
        dsimp only
        split
        · rw [ih, ids_collect]
        · next s _ =>
          have hprocess : (y.process s e.command).2.ids = y.ids :=
            ids_use (·.process e.command) y s
          split
          · next heq =>
            rw [heq] at hprocess
            exact hprocess
          · next heq =>
            rw [heq] at hprocess
            rw [ih, ids_collect]
            exact hprocess

theorem ids_deliver (x : Exchange) (o : OwnerId) (i : Nat) (redirect : Option PipeId) :
    (x.deliver o i redirect).2.ids = x.ids := by
  unfold deliver
  split
  · rfl
  · next e y htake =>
    rw [← ids_takePending htake]
    dsimp only
    split
    · rfl
    · next s _ =>
      have hprocess : (y.process s e.command).2.ids = y.ids :=
        ids_use (·.process e.command) y s
      split
      · next heq =>
        rw [heq] at hprocess
        exact hprocess
      · next heq =>
        rw [heq] at hprocess
        exact hprocess

theorem ids_giveEnd {number : Nat} {side : Queue.Side} {q : QueueId}
    (h : x.giveEnd number side = .ok (q, y)) : y.ids = x.ids := by
  unfold giveEnd at h
  split at h
  · cases h
  · split at h
    · cases h
      rfl
    · cases h

theorem ids_performAt (x : Exchange) (s : Station) (st : PipeStep) :
    (x.performAt s st).2.ids.Sublist x.ids := by
  have hsame : ∀ {y : Exchange}, y.ids = x.ids → y.ids.Sublist x.ids := fun h => by rw [h]
  cases st with
  | call c => exact hsame (ids_use (·.perform c) x s)
  | writeMany count stem more => exact hsame (ids_writeFrom ..)
  | readMany max => exact hsame (ids_readFrom ..)
  | process c => exact hsame (ids_use (·.process _) (x.equip c).2 s)
  | obey c => exact hsame (ids_use (·.obey _) (x.equip c).2 s)
  | hiccupWith writer retired =>
    refine hsame ?_
    dsimp only [performAt]
    split
    · rfl
    · next w y hw =>
      split
      · rfl
      · next r z hr =>
        rw [← ids_giveEnd hw, ← ids_giveEnd hr]
        exact ids_use (·.process (.hiccup w r)) z s
  | setIdentity bytes =>
    refine hsame ?_
    dsimp only [performAt]
    split
    · rfl
    · split
      · rfl
      · exact ids_putStation ..
  | setSink sink =>
    refine hsame ?_
    cases sink with
    | none => rfl
    | some sink =>
      dsimp only [performAt]
      split
      · rfl
      · exact ids_putStation ..
  | dropPipe => exact List.filter_sublist.map _
  | identity | info | describe => exact .refl _

/-- A step makes no pipe. -/
theorem ids_perform (x : Exchange) (s : Step) : (x.perform s).2.ids.Sublist x.ids := by
  have hsame : ∀ {y : Exchange}, y.ids = x.ids → y.ids.Sublist x.ids := fun h => by rw [h]
  cases s with
  | deliver owner i redirect => exact hsame (x.ids_deliver owner i redirect)
  | pump => exact hsame (ids_pumpFrom ..)
  | lose owner =>
    refine hsame ?_
    dsimp only [perform]
    split
    · rfl
    · next htake => exact ids_takePending htake
  | post owner target c =>
    refine hsame ?_
    dsimp only [perform, post]
    split
    · rfl
    · split <;> rfl
  | queue number request =>
    refine hsame ?_
    dsimp only [perform, serveQueue]
    split
    · rfl
    · split <;> rfl
  | pipe p st =>
    dsimp only [perform]
    split
    · exact .refl _
    · exact ids_performAt ..
  | pending | dropInbox | isClosed | dropEvents | newQueue => exact .refl _

/-- A step leaves nothing on its way. -/
theorem Settled.step (h : x.Settled) (s : Step) : (x.step s).2.Settled := by
  have hids : (x.step s).2.ids = (x.perform s).2.ids := by
    change List.map _ (List.map _ _) = _
    rw [List.map_map]
    exact ids_collect _
  exact ⟨drained_collect (x.perform s).2, hids ▸ h.distinct.sublist (x.ids_perform s)⟩

theorem of_addPair {config : Config} {n : Nat} {plan : PairPlan}
    (h : addPair config x n plan = .ok y) :
    y.owners = x.owners ∧ y.ids = x.ids ++ [⟨n + 1⟩, ⟨n + 2⟩] := by
  unfold addPair Pipe.pair at h
  cases hc : config.validate with
  | error e =>
    rw [hc] at h
    cases h
  | ok u =>
    rw [hc] at h
    obtain rfl := Except.ok.inj h
    exact ⟨rfl, by simp [ids, addPipe, Pipe.ofPlans]⟩

/-- A further pair has numbers of its own. -/
theorem Settled.addPair {config : Config} {n : Nat} {plan : PairPlan} (hx : x.Settled)
    (hids : ∀ p ∈ x.ids, p.number ≤ n) (h : addPair config x n plan = .ok y) :
    y.Settled ∧ ∀ p ∈ y.ids, p.number ≤ n + 2 := by
  obtain ⟨howners, hnew⟩ := of_addPair h
  have hpair : ∀ p ∈ [PipeId.mk (n + 1), ⟨n + 2⟩], n < p.number ∧ p.number ≤ n + 2 := by
    simp
  refine ⟨⟨fun owner ho => hx.drained owner (howners ▸ ho), ?_⟩, fun p hp => ?_⟩
  · rw [hnew]
    refine List.nodup_append.2 ⟨hx.distinct, by simp, fun p hp q hq he => ?_⟩
    exact Nat.not_lt_of_ge (hids p hp) (he ▸ (hpair q hq).1)
  · rw [hnew, List.mem_append] at hp
    rcases hp with hp | hp
    · exact (hids p hp).trans (Nat.le_add_right ..)
    · exact (hpair p hp).2

theorem Settled.addPairs {config : Config} {n : Nat} {plans : List PairPlan} (hx : x.Settled)
    (hids : ∀ p ∈ x.ids, p.number ≤ n) (h : addPairs config x n plans = .ok y) : y.Settled := by
  induction plans generalizing x n with
  | nil =>
    obtain rfl := Except.ok.inj h
    exact hx
  | cons plan plans ih =>
    unfold Exchange.addPairs at h
    split at h
    · cases h
    · next hadd =>
      obtain ⟨hx, hids⟩ := hx.addPair hids hadd
      exact ih hx hids h

theorem Settled.of_create {config : Config} {owners : Nat} {plans : List PairPlan}
    (h : create config owners plans = .ok x) : x.Settled := by
  have hfresh : Settled { owners := List.replicate owners {} } :=
    ⟨fun owner ho => by rw [List.eq_of_mem_replicate ho]; rfl, List.nodup_nil⟩
  exact hfresh.addPairs (fun p hp => by cases hp) h

/-- The exchanges that steps come to. -/
inductive Reached : Exchange → Prop where
  | create {config : Config} {owners : Nat} {plans : List PairPlan} {x : Exchange}
      (h : create config owners plans = .ok x) : Reached x
  | step {x : Exchange} (h : Reached x) (s : Step) : Reached (x.step s).2

theorem Reached.settled (h : x.Reached) : x.Settled := by
  induction h with
  | create h => exact .of_create h
  | step _ s ih => exact ih.step s

/-- **Whatever was done to an exchange, to pump it either ends in a fault or leaves no command
anywhere, and a higher bound would make no difference.** -/
theorem Reached.pump_settles (h : x.Reached) :
    (∀ n, x.backlog ≤ n → pumpFrom n 0 #[] x = x.pump) ∧
      ((∃ fault, x.pump.1 = .error fault) ∨ x.pump.2.IsIdle) := by
  refine ⟨fun n hn => (pump_eq h.settled hn).symm, ?_⟩
  cases hp : x.pump with
  | mk result y =>
    cases result with
    | error fault => exact .inl ⟨fault, rfl⟩
    | ok handed => exact .inr (isIdle_of_pump h.settled hp)

end MessagePipe.Exchange
