import MessagePipe.Proofs.Lifecycle

/-!
# A stream on its way to another queue

Told that its outbound queue was replaced, an end moves what that one still holds to the new queue:
it publishes and takes back what is staged, drains the queue through the reading end it was handed,
stages everything again and publishes once more (`process_hiccup`, §11.3 of the specification). All
that is left of this from outside is a queue that changed its name: the complete frames are
published there, in order, and a message that is open stays open.

* `Segments.flush_blank`: publishing to a queue in which nothing was published so far.
* `Reacts.eq_of_hiccup`: what becomes of an end that has an outbound queue when that is replaced:
  the reaction is written out in full, and it is the only one.
* `Relocated`: what the notice does to the whole link. The new queue holds what the old one did, the
  old one is drained, the other queues and both ends are as they were but for the outbound queue and
  its mark; its reader is woken if it had parked and there is something to read; and the sink is
  told that the queue was replaced, in `active`.
* `Link.relocation`: so it is whatever was done with the end before, and with any content of the two
  queues; and an end that gave its outbound queue up does nothing.
* `Link.relocation_to_parked`: a frame of each kind, a reader that had parked, and an end that gave
  its queue up.

Premises: the notice names the queue that is fed and a fresh one, and what is published and ready in
the old one ends with a message.

Out of scope: that notices of a peer do so, which is in `Proofs/Wiring` and `Proofs/Stream`.
-/

namespace MessagePipe

open Function (update)

/-! ## The two queues -/

/-- Publishing to a queue in which nothing was published so far. -/
theorem Segments.flush_blank (ready fragments : List Frame) (idle : Bool) :
    ({ ready, fragments, idle } : Segments Frame).flush =
      (idle && !ready.isEmpty,
        { visible := ready, fragments, idle := idle && ready.isEmpty }) := by
  cases ready with
  | nil => simp [flush]
  | cons f fs => simp [flush]

/-! ## The end that moves its stream -/

/-- **An end that has its outbound queue moves all that is in it, and publishes it.** -/
theorem Reacts.eq_of_hiccup {p : Pipe} {v : View} {new old : QueueId} {r : Reaction}
    (h : Reacts p v (.command (.hiccup new old)) r) (hp : p.Honest) (ho : p.outbound = some old) :
    r = { pipe := { p with outbound := some new, outActive := true }
          view := update (v.moveStream old new old) new (v.moveStream old new old new).flush.2
          posted := (v.moveStream old new old new).wake
          events := if p.state = .active then [.hiccuped] else [] } := by
  have hs : p.state ≠ .terminating := fun hs => by
    -- In that state an end gave its outbound queue up.
    rw [Pipe.Honest, ho, hs] at hp
    cases hp
  exact h.unique (.hiccupMoved hs ho)

namespace Link

/-- Side `s` moved its stream of published frames `V`, ready frames `S` and fragments `F` from the
queue `old` to the queue `new`, whose reader had parked if `idle` is set. -/
structure Relocated (l : Link) (s : Side) (old new : QueueId) (V S F : List Frame) (idle : Bool)
    (rep : Report) (l' : Link) : Prop where
  result : rep.result = .ok .done
  pipe : (l'.side s).pipe =
    { (l.side s).pipe with outbound := some new, outActive := true }
  /-- All complete frames are published, in order, and the open message is still open. -/
  filled : l'.view new =
    { visible := V ++ S, ready := [], fragments := F, idle := idle && (V ++ S).isEmpty }
  drained : l'.view old = { idle := true }
  others : ∀ q, q ≠ old → q ≠ new → l'.view q = l.view q
  /-- The reader is woken if it had parked and has something to read. -/
  posted : Effect.commands rep.effects =
    if idle && !(V ++ S).isEmpty then [.activateRead] else []
  notified : Effect.events rep.effects =
    if (l.side s).pipe.state = .active then [.hiccuped] else []

theorem Relocated.of_turned {l l' : Link} {s : Side} {old new : QueueId} {V S F : List Frame}
    {idle idle' : Bool} {r : Reaction} {rep : Report}
    (ht : Turned l s (.command (.hiccup new old)) r rep l') (hp : (l.side s).pipe.Honest)
    (ho : (l.side s).pipe.outbound = some old) (hne : new ≠ old)
    (hold : l.view old = { visible := V, ready := S, fragments := F, idle := idle' })
    (hnew : l.view new = { idle }) (hw : Whole (V ++ S)) :
    Relocated l s old new V S F idle rep l' := by
  have hmoved : l.view.moveStream old new old new = { ready := V ++ S, fragments := F, idle } := by
    rw [View.moveStream_writer _ hne (by rw [hnew]; rfl) (by rw [hold]; exact hw), hold, hnew]
  have hflush := Segments.flush_blank (V ++ S) F idle
  obtain rfl := ht.reacts.eq_of_hiccup hp ho
  have hview : l'.view = update (l.view.moveStream old new old) new
      { visible := V ++ S, fragments := F, idle := idle && (V ++ S).isEmpty } := by
    rw [ht.view]
    dsimp only
    rw [hmoved, hflush]
  constructor
  case result => exact ht.result
  case pipe => exact ht.own
  case filled => rw [hview, Function.update_self]
  case drained => rw [hview, Function.update_of_ne hne.symm, View.moveStream_retired _ hne]
  case others =>
    intro q ho hn
    rw [hview, Function.update_of_ne hn, View.moveStream_of_ne _ ho hn ho]
  case posted =>
    rw [ht.posted]
    dsimp only
    rw [hmoved, Segments.wake, hflush]
  case notified => exact ht.notified

/-- **A replaced queue changes the name of a stream, and nothing about it.** Whatever was done with
an end of a fresh pair before, and whatever the queue `old` that it feeds and the fresh queue `new`
come to hold: told of `new`, the end has all of its stream there. Complete frames are published,
delimiters among them, fragments are staged, all in order; of the end itself, only its outbound
queue and its readiness to write change. Its reader is woken once if it had parked and finds a
frame, and the owner is notified in normal operation only. An end that gave its outbound queue up
does nothing. -/
theorem relocation {config : Config} {a b : Plan} {l₀ : Link} (h : create config a b = .ok l₀)
    (s : Side) (us : List Use) (u : Use) (old new : QueueId)
    (hu : u.stimulus? = some (.command (.hiccup new old))) :
    let l := l₀.useAll s us
    (∀ (V S F : List Frame) (idle idle' : Bool), (l.side s).pipe.outbound = some old →
      l.view old = { visible := V, ready := S, fragments := F, idle := idle' } →
      l.view new = { idle } → new ≠ old → Whole (V ++ S) →
      Relocated l s old new V S F idle (l.use s u).1 (l.use s u).2) ∧
    ((l.side s).pipe.outbound = none → Vain l s u (.ok .done)) := by
  intro l
  obtain ⟨hl, -⟩ := useAll_lasting (lasting_of_create h s) us
  constructor
  · intro V S F idle idle' ho hold hnew hne hw
    obtain ⟨r, ht⟩ := l.turned_use s hu
    exact .of_turned ht hl.honest ho hne hold hnew hw
  · exact fun ho => vain_of_released hl.honest ho hu rfl

/-- One frame is published, one is ready and one is a fragment; the reader of the new queue has
parked. Another end gave its outbound queue up. -/
theorem relocation_to_parked :
    ∃ l : Link, create {} { options := {} } { options := {} } = .ok l ∧
      let old : QueueId := .inbound Side.b.id 0
      let new : QueueId := .inbound Side.b.id 1
      let f : Nat → Frame := fun n => .ofBytes ⟨#[n.toUInt8]⟩
      let l₁ := l.useAll .a [.occasion (.tamper (Queues.empty.set new Queue.empty.read.2)),
        .occasion (.call (.write (f 1))), .occasion (.call .flush), .occasion (.call (.write (f 2))),
        .occasion (.call (.write (f 3).withMore))]
      let l₂ := l.useAll .a [.obey .pipeTerm, .occasion (.call (.terminate false))]
      Relocated l₁ .a old new [f 1] [f 2] [(f 3).withMore] true
        (l₁.use .a (.obey (.hiccup new old))).1 (l₁.use .a (.obey (.hiccup new old))).2 ∧
      Vain l₂ .a (.occasion (.process (.hiccup new old))) (.ok .done) := by
  have hcreate : create {} { options := {} } { options := {} } = .ok _ := rfl
  refine ⟨_, hcreate, ?_⟩
  intro old new f l₁ l₂
  refine ⟨(relocation hcreate .a _ (.obey (.hiccup new old)) old new rfl).1 [f 1] [f 2]
    [(f 3).withMore] true false (by decide) (by decide) (by decide) (by decide) ?_,
    (relocation hcreate .a _ (.occasion (.process (.hiccup new old))) old new rfl).2 (by decide)⟩
  exact whole_concat.2 (by decide)

end Link

end MessagePipe
