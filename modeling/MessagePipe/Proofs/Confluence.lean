import Mathlib.Logic.Relation
import MessagePipe.Proofs.Backlog
import MessagePipe.Proofs.Footprint

/-!
# The order in which two owners take their commands does not matter

Each owner takes the commands of its pipe in the order they were sent (§6 of the specification), but
nothing says which owner is first. Two commands that could be taken next by either owner can be
taken in either order, with the same outcome (`Overview.Takes.commute`), so all orders come to the
same end.

An `Overview` is a pair as its two ends see it (`Pair`) with the events their sinks passed on; to
take a command is a step of it, without mailboxes or a log. The proof is that of a rewriting
relation:

* `Takes.commute`: the two oldest commands reach disjoint queues (`Proofs/Footprint`), so taking one
  leaves the other as it was, and the diamond closes in one step on each side.
* `Overview.eq_of_idle`: what is left when nothing is underway is determined by the start.
* `Link.exists_allTaken`: there is such an end, for every command that is taken lowers
  `Link.backlog` (`Proofs/Backlog`).
* `Link.deliveries_confluent`: any two orders of deliveries that leave nothing underway leave the
  same pipes and the same contents of the queues, and each owner was told the same events.
* `Link.deliveries_confluent_of_crossing`: two requests that cross.

Premise: open mailboxes, and deliveries in the order sent; a run may have come to any state before.
Owners call nothing in between. Out of scope: the order of the entries in the log, which does depend
on who is first.
-/

namespace MessagePipe

open Function (update)

/-- Two ends that take a command each come to the same in either order, if the queues do. -/
theorem Pair.after_comm (x : Pair) (s : Side) (c c' : Command) (r r' : Reaction)
    (left left' : List Command) (w : View) :
    (x.after s (.command c) r left).after s.other (.command c') { r' with view := w }
        (left' ++ r.posted) =
      (x.after s.other (.command c') r' left').after s (.command c) { r with view := w }
        (left ++ r'.posted) := by
  simp only [Pair.after, Pair.mk.injEq, true_and]
  refine ⟨?_, ?_, ?_, ?_, ?_⟩ <;> funext s' <;> cases s <;> cases s' <;>
    simp [Side.other, Stimulus.sent, Stimulus.received]

/-- A pair, with the events the sinks of its ends passed on. -/
structure Overview where
  pair : Pair
  /-- Is somebody receiving from the sink of a side? -/
  listening : Side → Bool
  /-- The events the sink of a side passed on, in order. -/
  events : Side → List Event

namespace Overview

/-- What is there after side `s` took the command `c` by `r`, with `left` still underway to it. -/
def after (x : Overview) (s : Side) (c : Command) (r : Reaction) (left : List Command) :
    Overview where
  pair := x.pair.after s (.command c) r left
  listening := x.listening
  events := update x.events s
    (x.events s ++ r.events.filter (r.pipe.passes (x.listening s)))

theorem after_comm (x : Overview) (s : Side) (c c' : Command) (r r' : Reaction)
    (left left' : List Command) (w : View) :
    (x.after s c r left).after s.other c' { r' with view := w } (left' ++ r.posted) =
      (x.after s.other c' r' left').after s c { r with view := w } (left ++ r'.posted) := by
  simp only [after, Pair.after_comm, mk.injEq, true_and]
  funext s'
  cases s <;> cases s' <;> simp [Side.other]

/-- Side `s` takes its oldest command. -/
inductive Takes (x : Overview) (s : Side) : Overview → Prop where
  | intro {c : Command} {r : Reaction} {left : List Command} (hd : x.pair.due s = c :: left)
      (hr : Reacts (x.pair.pipe s) x.pair.view (.command c) r) : Takes x s (x.after s c r left)

/-- One of the sides takes its oldest command. -/
def Next (x y : Overview) : Prop :=
  x.pair.Sound ∧ ∃ s, Takes x s y

/-- Nothing is underway. -/
def Idle (x : Overview) : Prop :=
  ∀ s, x.pair.due s = []

variable {x y z : Overview} {s : Side}

theorem Takes.sound (h : Takes x s y) (hx : x.pair.Sound) : y.pair.Sound := by
  obtain ⟨hd, hr⟩ := h
  exact hx.react hd hr

theorem Takes.unique (h : Takes x s y) (h' : Takes x s z) : y = z := by
  obtain ⟨hd, hr⟩ := h
  obtain ⟨hd', hr'⟩ := h'
  obtain ⟨rfl, rfl⟩ := List.cons.inj (hd.symm.trans hd')
  rw [hr.unique hr']

/-- **Two sides that can both take a command can do so in either order.** -/
theorem Takes.commute (hx : x.pair.Sound) (h : Takes x s y) (h' : Takes x s.other z) :
    ∃ w, Takes y s.other w ∧ Takes z s w := by
  obtain @⟨c, r, left, hd, hr⟩ := h
  obtain @⟨c', r', left', hd', hr'⟩ := h'
  have hne := fun {q : QueueId} => hx.disjoint (q := q) hd hd'
  -- Either reaction is the same after the other one, which left the queues it touches alone.
  obtain ⟨w, hw, hin, hout⟩ := hr.exists_of_agree fun q hq => hr'.view_of_not_touches (hne hq)
  obtain ⟨w', hw', hin', hout'⟩ := hr'.exists_of_agree fun q hq =>
    hr.view_of_not_touches fun hq' => hne hq' hq
  obtain rfl : w = w' := by
    funext q
    by_cases hq : (x.pair.pipe s).Touches q c
    · rw [hin q hq, hout' q (hne hq)]
    · by_cases hq' : (x.pair.pipe s.other).Touches q c'
      · rw [hout q hq, hin' q hq']
      · rw [hout q hq, hout' q hq', hr'.view_of_not_touches hq', hr.view_of_not_touches hq]
  refine ⟨(x.after s c r left).after s.other c' { r' with view := w } (left' ++ r.posted),
    .intro ?_ ?_, ?_⟩
  · rw [after, Pair.due_after_other, hd']
    rfl
  · rw [after, Pair.pipe_after_other]
    exact hw'
  · have hdue := x.pair.due_after_other s.other (.command c') r' left'
    have hpipe := x.pair.pipe_after_other s.other (.command c') r' left'
    rw [Side.other_other] at hdue hpipe
    rw [after_comm]
    exact .intro (by rw [after, hdue, hd]; rfl) (by rw [after, hpipe]; exact hw)

/-- **What can be taken next by either owner comes to the same.** -/
theorem Next.diamond (h : Next x y) (h' : Next x z) :
    ∃ w, Relation.ReflGen Next y w ∧ Relation.ReflTransGen Next z w := by
  obtain ⟨hx, s, ht⟩ := h
  obtain ⟨-, s', ht'⟩ := h'
  rcases s.eq_or_eq_other s' with rfl | rfl
  · obtain rfl := ht.unique ht'
    exact ⟨y, .refl, .refl⟩
  · obtain ⟨w, hw, hw'⟩ := ht.commute hx ht'
    exact ⟨w, .single ⟨ht.sound hx, _, hw⟩, .single ⟨ht'.sound hx, _, hw'⟩⟩

theorem Idle.eq (hi : Idle x) (h : Relation.ReflTransGen Next x y) : y = x := by
  rcases h.cases_head with rfl | ⟨z, ⟨-, s, ht⟩, -⟩
  · rfl
  · obtain ⟨hd, -⟩ := ht
    cases (hi s).symm.trans hd

/-- **What is left when nothing is underway does not depend on the order.** -/
theorem eq_of_idle (hy : Relation.ReflTransGen Next x y) (hz : Relation.ReflTransGen Next x z)
    (hiy : Idle y) (hiz : Idle z) : y = z := by
  obtain ⟨w, hw, hw'⟩ := Relation.church_rosser (fun _ _ _ => Next.diamond) hy hz
  rw [← hiy.eq hw, hiz.eq hw']

end Overview

namespace Link

variable {config : Config} {a b : Plan} {tr : Trace} {l : Link}

/-- One owner after the other takes the oldest command that arrived, if there is one. -/
def deliverAll (l : Link) (order : List Side) : Link :=
  (l.run (order.map .deliver)).2

/-- All commands that were sent are taken. -/
def AllTaken (l : Link) : Prop :=
  ∀ s, l.commands s = []

theorem deliverAll_cons (l : Link) (s : Side) (order : List Side) :
    l.deliverAll (s :: order) = (l.step (.deliver s)).2.deliverAll order := rfl

/-! ## What the owners see -/

/-- The overview `x` is what a link and its trace show. -/
structure Shows (tr : Trace) (l : Link) (x : Overview) : Prop where
  follows : Pair.Follows tr l x.pair
  listening : ∀ s, x.listening s = (l.side s).listening
  events : ∀ s, x.events s = (l.side s).events

theorem OpenRun.exists_shows (h : OpenRun config a b tr l) :
    ∃ x, Shows tr l x ∧ x.pair.Sound := by
  obtain ⟨x, hf, hx⟩ := h.exists_sound
  exact ⟨⟨x, fun s => (l.side s).listening, fun s => (l.side s).events⟩,
    ⟨hf, fun _ => rfl, fun _ => rfl⟩, hx⟩

/-- An overview goes along with a delivery. -/
theorem Shows.deliver {x : Overview} (h : Shows tr l x) (s : Side) :
    ∃ y, (y = x ∨ x.Takes s y) ∧
      Shows (tr ++ [(.deliver s, (l.step (.deliver s)).1)]) (l.step (.deliver s)).2 y := by
  cases hc : l.commands s with
  | nil =>
    rw [step_deliver_nil hc]
    exact ⟨x, .inl rfl, h.follows.stays nofun rfl, h.listening, h.events⟩
  | cons c left =>
    obtain ⟨r, ht⟩ := took_deliver hc
    obtain ⟨left, hd, hr, hf⟩ := h.follows.took ht (.inr ⟨rfl, c, rfl⟩)
    refine ⟨_, .inr (.intro hd hr), hf, fun s' => (h.listening s').trans (ht.listening s').symm,
      fun s' => ?_⟩
    rw [Overview.after]
    rcases s.eq_or_eq_other s' with rfl | rfl
    · rw [ht.events, ← h.events, ← h.listening]
      exact Function.update_self ..
    · rw [ht.unheard, ← h.events]
      exact Function.update_of_ne s.other_ne ..

theorem Shows.deliverAll {x : Overview} (h : Shows tr l x) (hx : x.pair.Sound)
    (order : List Side) :
    ∃ tr' y, Shows tr' (l.deliverAll order) y ∧ Relation.ReflTransGen Overview.Next x y := by
  induction order generalizing tr l x with
  | nil => exact ⟨tr, x, h, .refl⟩
  | cons s order ih =>
    obtain ⟨y, rfl | ht, hy⟩ := h.deliver s
    · exact ih hy hx
    · obtain ⟨tr', z, hz, hyz⟩ := ih hy (ht.sound hx)
      exact ⟨tr', z, hz, .head ⟨hx, s, ht⟩ hyz⟩

theorem receiving_deliverAll (l : Link) (order : List Side) (s : Side) :
    ((l.deliverAll order).side s).inbox.receiving = (l.side s).inbox.receiving := by
  induction order generalizing l with
  | nil => rfl
  | cons s' order ih => rw [deliverAll_cons, ih, receiving_step rfl]

/-- Once all is taken from open mailboxes, nothing is underway. -/
theorem Shows.idle {x : Overview} (h : Shows tr l x)
    (hr : ∀ s, (l.side s).inbox.receiving = true) (ht : l.AllTaken) : x.Idle := fun s =>
  (h.follows.due s (hr s)).trans (ht s)

/-! ## Taking commands comes to an end -/

/-- **Some order leaves nothing to take.** -/
theorem exists_allTaken (l : Link) : ∃ order, (l.deliverAll order).AllTaken := by
  induction hn : l.backlog using Nat.strong_induction_on generalizing l with
  | _ n ih =>
    subst hn
    by_cases h : l.AllTaken
    · exact ⟨[], h⟩
    · obtain ⟨s, hs⟩ := not_forall.1 h
      obtain ⟨c, left, hc⟩ := List.exists_cons_of_ne_nil hs
      obtain ⟨r, ht⟩ := took_deliver hc
      obtain ⟨order, ho⟩ := ih _ (ht.backlog_lt (.of_eq ht.inbox.symm)) _ rfl
      exact ⟨s :: order, ho⟩

/-- **The order in which two owners take their commands does not matter.** From wherever a run comes
to, some order of deliveries leaves nothing to take, and all that do leave the same ends and the
same in every queue, and have told each owner the same. -/
theorem deliveries_confluent (h : OpenRun config a b tr l) :
    (∃ order, (l.deliverAll order).AllTaken) ∧
    ∀ o₁ o₂, (l.deliverAll o₁).AllTaken → (l.deliverAll o₂).AllTaken →
      (l.deliverAll o₁).view = (l.deliverAll o₂).view ∧
      ∀ s, ((l.deliverAll o₁).side s).pipe = ((l.deliverAll o₂).side s).pipe ∧
        ((l.deliverAll o₁).side s).events = ((l.deliverAll o₂).side s).events := by
  refine ⟨l.exists_allTaken, fun o₁ o₂ h₁ h₂ => ?_⟩
  have hr : ∀ o s, ((l.deliverAll o).side s).inbox.receiving = true := fun o s =>
    (l.receiving_deliverAll o s).trans (h.receiving s)
  obtain ⟨x, hs, hx⟩ := h.exists_shows
  obtain ⟨tr₁, y₁, hs₁, hy₁⟩ := hs.deliverAll hx o₁
  obtain ⟨tr₂, y₂, hs₂, hy₂⟩ := hs.deliverAll hx o₂
  obtain rfl := Overview.eq_of_idle hy₁ hy₂ (hs₁.idle (hr o₁) h₁) (hs₂.idle (hr o₂) h₂)
  exact ⟨hs₁.follows.view.symm.trans hs₂.follows.view, fun s =>
    ⟨(hs₁.follows.pipe s).symm.trans (hs₂.follows.pipe s),
      (hs₁.events s).symm.trans (hs₂.events s)⟩⟩

/-- Both owners replaced their queue and asked to terminate; either of them goes first. -/
theorem deliveries_confluent_of_crossing :
    ∃ (tr : Trace) (l : Link), OpenRun {} { options := {} } { options := {} } tr l ∧
      (l.deliverAll [.a, .a, .a, .b, .b, .b, .a]).AllTaken ∧
      (l.deliverAll [.b, .b, .a, .b, .a, .a, .b]).AllTaken ∧
      (l.deliverAll [.a, .a, .a, .b, .b, .b, .a]).view =
        (l.deliverAll [.b, .b, .a, .b, .a, .a, .b]).view ∧
      ∀ s, ((l.deliverAll [.a, .a, .a, .b, .b, .b, .a]).side s).pipe =
          ((l.deliverAll [.b, .b, .a, .b, .a, .a, .b]).side s).pipe ∧
        ((l.deliverAll [.a, .a, .a, .b, .b, .b, .a]).side s).events =
          ((l.deliverAll [.b, .b, .a, .b, .a, .a, .b]).side s).events := by
  have h : OpenRun {} { options := {} } { options := {} } _ _ := run_of_steps rfl
    [.call .a (.write (.ofBytes ⟨#[1]⟩)), .call .a .flush, .call .b .hiccup, .call .a .hiccup,
      .call .b (.write (.ofBytes ⟨#[2]⟩)), .call .a (.terminate false), .call .b (.terminate true)]
    ⟨rfl, rfl, rfl, rfl, rfl, rfl, rfl, trivial⟩
  refine ⟨_, _, h, ?h₁, ?h₂, (deliveries_confluent h).2 _ _ ?h₁ ?h₂⟩
  case h₁ => exact fun s => by cases s <;> decide
  case h₂ => exact fun s => by cases s <;> decide

end Link

end MessagePipe
