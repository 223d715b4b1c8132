import MessagePipe.Proofs.Tally
import MessagePipe.Transfer.Task

/-!
# What a task does with the pair it drives

A task takes a command, takes the events its sink passed on, notes them in the log, and works
(`Transfer.Behaviour.listen`, the loop of both tasks of §11.5 of the specification). This module
says what each of these parts is to the pair, so that neither the count of turns (`Proofs/Turns`)
nor the argument for completion (`Proofs/Tasks`) opens the loop.

* `Link.Alike`: two links that differ in nothing that a pipe, a queue or a mailbox that is open
  knows of. To take events and to make entries leaves a link alike (`alike_told`).
* `Link.step_deliver_cons`: the command a task takes is the oldest one that arrived.
* `Link.leave` closes the task's own mailbox and gives up a handle of the other one;
  `Pair.Follows.leave` says that a pair which follows the link goes on following it.
* `Link.IsSound`: a link that some sound pair follows. It is kept by everything a task does: by
  reactions (`IsSound.took`), by calls, by taking events, and by leaving.
* `Transfer.Behaviour.listen_cons`: one turn of the loop. A fault ends the task, the end of its pipe
  ends it, and otherwise it works and goes on (`Behaviour.goOn`).
* `Transfer.Behaviour.length_lt_patience`: a task looks often enough to take all that is there.

Out of scope: which task is polled when; that is `Proofs/Rounds` and `Proofs/Completion`.
-/

namespace MessagePipe

/-- What a pair follows of a link are its ends, its queues and the commands that arrived. -/
theorem Pair.Follows.congr {tr : Link.Trace} {l l' : Link} {x : Pair} (h : Pair.Follows tr l x)
    (hp : ∀ s, (l'.side s).pipe = (l.side s).pipe) (hc : ∀ s, l'.commands s = l.commands s)
    (hr : ∀ s, (l'.side s).inbox.receiving = (l.side s).inbox.receiving)
    (hv : l'.view = l.view) : Pair.Follows tr l' x where
  pipe s := by rw [hp, h.pipe]
  view := by rw [hv, h.view]
  due s hs := by rw [hc, h.due s (hr s ▸ hs)]
  lost s hs := by rw [hc, h.lost s (hr s ▸ hs)]
  written := h.written
  obtained := h.obtained
  posted := h.posted

namespace Link

/-- Two links are alike but for the events that were not taken, and for their logs. -/
structure Alike (l l' : Link) : Prop where
  pipe : ∀ s, (l'.side s).pipe = (l.side s).pipe
  inbox : ∀ s, (l'.side s).inbox = (l.side s).inbox
  listening : ∀ s, (l'.side s).listening = (l.side s).listening
  queues : l'.queues = l.queues

namespace Alike

variable {l l' : Link}

theorem refl (l : Link) : Alike l l :=
  ⟨fun _ => rfl, fun _ => rfl, fun _ => rfl, rfl⟩

theorem commands (h : Alike l l') (s : Side) : l'.commands s = l.commands s := by
  rw [Link.commands, h.inbox]
  rfl

theorem follows (h : Alike l l') {tr : Trace} {x : Pair} (hf : Pair.Follows tr l x) :
    Pair.Follows tr l' x :=
  hf.congr h.pipe h.commands (fun s => by rw [h.inbox])
    (by rw [view, h.queues]; rfl)

end Alike

/-- A task that leaves takes its mailbox and its handle along, and nothing else. -/
theorem pipe_leave (l : Link) (s s' : Side) : ((l.leave s).side s').pipe = (l.side s').pipe := by
  cases s <;> cases s' <;> rfl

theorem listening_leave (l : Link) (s s' : Side) :
    ((l.leave s).side s').listening = (l.side s').listening := by
  cases s <;> cases s' <;> rfl

theorem events_leave (l : Link) (s s' : Side) :
    ((l.leave s).side s').events = (l.side s').events := by
  cases s <;> cases s' <;> rfl

theorem inbox_leave_self (l : Link) (s : Side) :
    ((l.leave s).side s).inbox = (l.side s).inbox.close := by
  cases s <;> rfl

theorem inbox_leave_other (l : Link) (s : Side) :
    ((l.leave s).side s.other).inbox = (l.side s.other).inbox.dropHandle 0 := by
  cases s <;> rfl

/-- Entries in the log change nothing else. -/
theorem side_note (l : Link) (e : Entry) (s : Side) : (l.note e).side s = l.side s := by
  cases s <;> rfl

theorem alike_note (l : Link) (e : Entry) : Alike l (l.note e) :=
  ⟨fun s => by rw [side_note], fun s => by rw [side_note], fun s => by rw [side_note], rfl⟩

theorem side_foldl_note (es : List Event) (f : Event → Entry) (l : Link) (s : Side) :
    (es.foldl (fun l e => l.note (f e)) l).side s = l.side s := by
  induction es generalizing l with
  | nil => rfl
  | cons e es ih => rw [List.foldl_cons, ih, side_note]

theorem queues_foldl_note (es : List Event) (f : Event → Entry) (l : Link) :
    (es.foldl (fun l e => l.note (f e)) l).queues = l.queues := by
  induction es generalizing l with
  | nil => rfl
  | cons e es ih => rw [List.foldl_cons, ih]; rfl

variable {l : Link} {s : Side} {c : Command} {left : List Command}

/-- The oldest command is found, and handed to the pipe. -/
theorem step_deliver_cons (h : l.commands s = c :: left) :
    (∃ e, (l.receive s).1 = .envelope e ∧ e.command = c) ∧
      l.step (.deliver s) = (l.receive s).2.process s c := by
  obtain ⟨e, inbox, hr, hc, -⟩ := receive_cons h
  refine ⟨⟨e, by rw [hr], hc⟩, ?_⟩
  unfold step
  dsimp only
  rw [hr, ← hc]

end Link

/-- A task that leaves closes its mailbox, and drops a handle, which no pair knows of. -/
theorem Pair.Follows.leave {tr : Link.Trace} {l : Link} {x : Pair} (h : Pair.Follows tr l x)
    (s : Side) : ∃ tr', Pair.Follows tr' (l.leave s) x := by
  have hstep : ∀ s' c, Link.Step.closeInbox s ≠ .call s' c := by rintro _ _ ⟨⟩
  have hclosed := h.closeInbox s hstep (rfl : ({} : Link.Report).effects = [])
  refine ⟨_, hclosed.congr (fun s' => ?_) (fun s' => ?_) (fun s' => ?_) ?_⟩
  · cases s <;> cases s' <;> rfl
  · cases s <;> cases s' <;> rfl
  · cases s <;> cases s' <;> rfl
  · cases s <;> rfl

namespace Link

/-- A pair goes along with the link, and its books are in order. -/
def IsSound (l : Link) : Prop :=
  ∃ tr x, Pair.Follows tr l x ∧ Pair.Sound x ∧ Pair.Tallied x

namespace IsSound

variable {l l' : Link} {s : Side}

theorem of_create {config : Config} {a b : Plan} (h : create config a b = .ok l) : l.IsSound :=
  ⟨_, _, .start h, (Pair.Reached.fresh h).sound, (Pair.Reached.fresh h).tallied⟩

theorem took {st : Stimulus} {r : Reaction} {rep : Report} (h : l.IsSound)
    (ht : Took l s st r rep l') : l'.IsSound := by
  obtain ⟨tr, x, hf, hs, hx⟩ := h
  have hreact : ∀ {step : Step},
      ((∃ c, step = .call s c ∧ st = .call c) ∨ step = .deliver s ∧ ∃ c, st = .command c) →
        l'.IsSound := fun hst => by
    obtain ⟨left, hd, hr, hf'⟩ := hf.took ht hst
    exact ⟨_, _, hf', hs.react hd hr, hx.react hs hd hr⟩
  cases st with
  | call c => exact hreact (.inl ⟨c, rfl, rfl⟩)
  | command c => exact hreact (.inr ⟨rfl, c, rfl⟩)

theorem call (h : l.IsSound) (s : Side) (c : Call) : (l.call s c).2.IsSound :=
  have ⟨_, ht⟩ := l.took_call s c
  h.took ht

theorem alike (h : l.IsSound) (ha : Alike l l') : l'.IsSound :=
  have ⟨tr, x, hf, hx⟩ := h
  ⟨tr, x, ha.follows hf, hx⟩

theorem leave (h : l.IsSound) (s : Side) : (l.leave s).IsSound :=
  have ⟨_, x, hf, hx⟩ := h
  have ⟨tr, hf'⟩ := hf.leave s
  ⟨tr, x, hf', hx⟩

/-- No more is counted read than was written. -/
theorem msgsRead_le (h : l.IsSound) (s : Side) :
    (l.side s.other).pipe.msgsRead ≤ (l.side s).pipe.msgsWritten := by
  obtain ⟨tr, x, hf, hs, hx⟩ := h
  rw [← hf.pipe, ← hf.pipe]
  exact hx.read_le hs

end IsSound

end Link

namespace Transfer.Behaviour

variable {σ : Type} (β : Behaviour σ)

/-- The link after a task took the events that came up. -/
def told (l : Link) : Link :=
  (l.side β.side).events.foldl
    (fun l' e => l'.note (.taken β.role (l.side β.side).pipe.id e))
    (l.put β.side { l.side β.side with events := [] })

theorem takeEvents_eq (stats : σ) (l : Link) :
    β.takeEvents stats l =
      (decide (.terminated ∈ (l.side β.side).events), (l.side β.side).events.foldl β.hear stats,
        β.told l) := by
  unfold takeEvents told Link.takeEvents
  dsimp only
  rw [Link.side_put_self]

theorem side_told (l : Link) (s : Side) :
    ((β.told l).side s) =
      if s = β.side then { l.side s with events := [] } else l.side s := by
  unfold told
  rw [Link.side_foldl_note]
  rcases β.side.eq_or_eq_other s with rfl | rfl
  · rw [Link.side_put_self, if_pos rfl]
  · rw [Link.side_put_other, if_neg β.side.other_ne]

theorem alike_told (l : Link) : Link.Alike l (β.told l) := by
  constructor
  case pipe =>
    intro s
    rw [β.side_told]
    split <;> rfl
  case inbox =>
    intro s
    rw [β.side_told]
    split <;> rfl
  case listening =>
    intro s
    rw [β.side_told]
    split <;> rfl
  case queues =>
    unfold told
    rw [Link.queues_foldl_note, Link.queues_put]

/-- What a task makes of a command that its pipe took: the task has ended if the pipe was taken
down, else it works and listens again. -/
def goOn (n : Nat) (stats : σ) (l : Link) : Task σ × Link :=
  let heard := (l.side β.side).events.foldl β.hear stats
  if .terminated ∈ (l.side β.side).events then β.finish .finished heard (β.told l)
  else
    match β.work heard (β.told l) with
    | (.error fault, l) => β.finish (.failed fault) heard l
    | (.ok stats, l) => β.listen n stats l

/-- **How a task takes a command:** a fault ends it, else it goes on. -/
theorem listen_cons {l : Link} {c : Command} {left : List Command}
    (h : l.commands β.side = c :: left) (n : Nat) (stats : σ) :
    β.listen (n + 1) stats l =
      match (l.step (.deliver β.side)).1.result with
      | .error fault => β.finish (.failed fault) stats (l.step (.deliver β.side)).2
      | .ok _ => β.goOn n stats (l.step (.deliver β.side)).2 := by
  obtain ⟨⟨e, he, rfl⟩, hstep⟩ := Link.step_deliver_cons h
  have hreceive : l.receive β.side = (.envelope e, (l.receive β.side).2) := Prod.ext he rfl
  rw [hstep, listen, hreceive]
  dsimp only
  generalize (l.receive β.side).2.process β.side e.command = o
  obtain ⟨⟨result, effects⟩, l'⟩ := o
  cases result with
  | error fault => rfl
  | ok reply =>
    dsimp only
    rw [β.takeEvents_eq, goOn]
    by_cases hterm : .terminated ∈ (l'.side β.side).events
    · rw [decide_eq_true hterm]
      exact (if_pos hterm).symm
    · rw [decide_eq_false hterm]
      exact (if_neg hterm).symm

variable {β}

/-- A task is ready that has not started, or has a command to take. -/
theorem isReady_of_commands {t : Task σ} {l : Link}
    (h : t.phase = .unstarted ∨ t.phase = .waiting ∧ l.commands β.side ≠ []) :
    β.isReady t l = true := by
  unfold isReady
  rcases h with hp | ⟨hp, hc⟩
  · rw [hp]
  · rw [hp]
    obtain ⟨c, left, hc⟩ := List.exists_cons_of_ne_nil hc
    obtain ⟨⟨e, he, -⟩, -⟩ := Link.step_deliver_cons hc
    dsimp only
    rw [show (l.side β.side).inbox.receive.1 = .envelope e from he]

/-- There are fewer commands than a task looks for. -/
theorem length_lt_patience (β : Behaviour σ) (l : Link) :
    (l.commands β.side).length < β.patience l := by
  rw [patience, Link.commands, List.length_map]
  exact Nat.lt_succ_self _

end Transfer.Behaviour

end MessagePipe
