import MessagePipe.Mailbox
import MessagePipe.Pipe.Turn

/-!
# What an endpoint's effects reach

The effects of a call are done in order: commands go to the mailbox of the peer's owner, events to
whoever receives from the endpoint's sink (`send_peer`, `notify`, `forward`). The log records every
command before it is sent, every command that was lost on the way because the mailbox is closed, an
event for which there is no sink, and the events that a sink reports as lost.

Nothing of this comes back to the endpoint that made the effect, which is why a `Turn` can list its
effects and have them done at the end. A command that is lost is treated as never delivered (§7 of
the specification), and the endpoint stays as the call left it.

`queued_applyAll`, `events_applyAll` and `log_applyAll` say where commands, events and entries end
up: behind those that were there before, in the order the call made them. `receiving_applyAll` and
`handles_applyAll` say what no effect changes, `mailbox_applyAll_of_closed` that a closed mailbox
takes nothing.

Out of scope: events that an owner receives on another thread while the call goes on; they are there
once the call is over.
-/

namespace MessagePipe

/-- Does an endpoint pass an event on to somebody who receives it? -/
def Pipe.passes (p : Pipe) (listening : Bool) (e : Event) : Bool :=
  listening && p.sink.any fun sink => sink.hears e

/-- What an endpoint's effects reach. -/
structure Surroundings where
  /-- The mailbox of the peer's owner. -/
  mailbox : Mailbox
  /-- Is somebody receiving from the endpoint's sink? -/
  listening : Bool
  /-- The events passed on and not taken, in order. -/
  events : List Event
  /-- The log, in order. -/
  log : Log

namespace Surroundings

/-- Makes an entry in the log. -/
def note (s : Surroundings) (entry : Entry) : Surroundings :=
  { s with log := s.log.push entry }

/-- Sends a command of endpoint `p` to its peer. -/
def post (s : Surroundings) (p : Pipe) (command : Command) : Surroundings :=
  let noted := s.note (.sent p.id p.peer command.name)
  match noted.mailbox.send { target := p.peer, command } with
  | .ok mailbox => { noted with mailbox }
  | .error cause => noted.note (.unsent p.id command.name p.peer cause)

/-- Notifies the owner of endpoint `p`. -/
def notify (s : Surroundings) (p : Pipe) (event : Event) : Surroundings :=
  match p.sink with
  | none => s.note (.noSink p.id event)
  | some sink =>
    if sink.hears event then
      if s.listening then { s with events := s.events ++ [event] }
      else if sink.reportsLoss then s.note (.eventLost p.id event)
      else s
    else s

/-- Does one effect of endpoint `p`. -/
def apply (p : Pipe) (s : Surroundings) : Effect → Surroundings
  | .note entry => s.note entry
  | .post command => s.post p command
  | .notify event => s.notify p event

/-- Does the effects of endpoint `p`, in order. -/
def applyAll (s : Surroundings) (p : Pipe) (effects : List Effect) : Surroundings :=
  effects.foldl (apply p) s

/-! ## Where effects end up -/

@[simp] theorem applyAll_nil (s : Surroundings) (p : Pipe) : s.applyAll p [] = s := rfl

@[simp] theorem applyAll_cons (s : Surroundings) (p : Pipe) (e : Effect) (es : List Effect) :
    s.applyAll p (e :: es) = (apply p s e).applyAll p es := rfl

/-- Sending neither closes nor opens a mailbox. -/
theorem receiving_post (s : Surroundings) (p : Pipe) (c : Command) :
    (s.post p c).mailbox.receiving = s.mailbox.receiving := by
  cases h : s.mailbox.receiving <;> simp [post, note, Mailbox.send, h]

theorem mailbox_notify (s : Surroundings) (p : Pipe) (e : Event) :
    (s.notify p e).mailbox = s.mailbox := by
  unfold notify
  split
  · rfl
  · split
    · split
      · rfl
      · split <;> rfl
    · rfl

theorem receiving_applyAll (s : Surroundings) (p : Pipe) (es : List Effect) :
    (s.applyAll p es).mailbox.receiving = s.mailbox.receiving := by
  induction es generalizing s with
  | nil => rfl
  | cons e es ih =>
    rw [applyAll_cons, ih]
    cases e with
    | note => rfl
    | post c => exact receiving_post s p c
    | notify e => exact congrArg Mailbox.receiving (mailbox_notify s p e)

/-- No handle is made or given up. -/
theorem handles_applyAll (s : Surroundings) (p : Pipe) (es : List Effect) :
    (s.applyAll p es).mailbox.handles = s.mailbox.handles := by
  induction es generalizing s with
  | nil => rfl
  | cons e es ih =>
    rw [applyAll_cons, ih]
    cases e with
    | note => rfl
    | post c => cases h : s.mailbox.receiving <;> simp [apply, post, note, Mailbox.send, h]
    | notify e => exact congrArg Mailbox.handles (mailbox_notify s p e)

/-- Commands arrive behind those sent before. -/
theorem queued_applyAll (s : Surroundings) (p : Pipe) (es : List Effect)
    (h : s.mailbox.receiving = true) :
    (s.applyAll p es).mailbox.queued.toList =
      s.mailbox.queued.toList ++
        (Effect.commands es).map fun command => { target := p.peer, command } := by
  induction es generalizing s with
  | nil => simp [Effect.commands]
  | cons e es ih =>
    rw [applyAll_cons]
    cases e with
    | note entry => exact ih _ h
    | post c =>
      rw [show apply p s (.post c) = s.post p c from rfl, ih _ ((receiving_post s p c).trans h)]
      simp [post, note, Mailbox.send, h, Effect.commands]
    | notify e =>
      have hm := mailbox_notify s p e
      rw [show apply p s (.notify e) = s.notify p e from rfl, ih _ (hm ▸ h), hm]
      simp [Effect.commands]

/-- A closed mailbox stays as it is. -/
theorem mailbox_applyAll_of_closed (s : Surroundings) (p : Pipe) (es : List Effect)
    (h : s.mailbox.receiving = false) : (s.applyAll p es).mailbox = s.mailbox := by
  induction es generalizing s with
  | nil => rfl
  | cons e es ih =>
    have hm : (apply p s e).mailbox = s.mailbox := by
      cases e with
      | note => rfl
      | post c => simp [apply, post, note, Mailbox.send, h]
      | notify e => exact mailbox_notify s p e
    rw [applyAll_cons, ih _ (hm ▸ h), hm]

theorem listening_apply (s : Surroundings) (p : Pipe) (e : Effect) :
    (apply p s e).listening = s.listening := by
  cases e with
  | note => rfl
  | post c => cases h : s.mailbox.receiving <;> simp [apply, post, note, Mailbox.send, h]
  | notify e =>
    simp only [apply, notify]
    split
    · rfl
    · split
      · split
        · rfl
        · split <;> rfl
      · rfl

/-- What is passed on comes behind what was passed on before. -/
theorem events_applyAll (s : Surroundings) (p : Pipe) (es : List Effect) :
    (s.applyAll p es).events =
      s.events ++ (Effect.events es).filter (p.passes s.listening) := by
  induction es generalizing s with
  | nil => simp [Effect.events]
  | cons e es ih =>
    rw [applyAll_cons, ih, listening_apply]
    cases e with
    | note => rfl
    | post c =>
      cases h : s.mailbox.receiving <;> simp [apply, post, note, Mailbox.send, h, Effect.events]
    | notify e =>
      cases hs : p.sink with
      | none => simp [apply, notify, note, hs, Effect.events, Pipe.passes]
      | some sink =>
        cases hh : sink.hears e <;> cases hl : s.listening <;> cases hr : sink.reportsLoss <;>
          simp [apply, notify, note, hs, hh, hl, hr, Effect.events, Pipe.passes]

/-- The entries an effect of endpoint `p` makes, where the mailbox takes commands if `receiving`,
and somebody receives from the sink if `listening`. -/
def entries (p : Pipe) (receiving listening : Bool) : Effect → List Entry
  | .note entry => [entry]
  | .post command =>
    .sent p.id p.peer command.name ::
      if receiving then [] else [.unsent p.id command.name p.peer .mailboxClosed]
  | .notify event =>
    match p.sink with
    | none => [.noSink p.id event]
    | some sink =>
      if sink.hears event && !listening && sink.reportsLoss then [.eventLost p.id event] else []

/-- What is logged comes behind what was logged before, and does not depend on it. -/
theorem log_applyAll (s : Surroundings) (p : Pipe) (es : List Effect) :
    (s.applyAll p es).log.toList =
      s.log.toList ++ es.flatMap (entries p s.mailbox.receiving s.listening) := by
  have happly : ∀ (s : Surroundings) (e : Effect), (apply p s e).log.toList =
      s.log.toList ++ entries p s.mailbox.receiving s.listening e := by
    intro s e
    cases e with
    | note entry => simp [apply, note, entries]
    | post c => cases h : s.mailbox.receiving <;> simp [apply, post, note, Mailbox.send, entries, h]
    | notify e =>
      cases hs : p.sink with
      | none => simp [apply, notify, note, entries, hs]
      | some sink =>
        cases hh : sink.hears e <;> cases hl : s.listening <;> cases hr : sink.reportsLoss <;>
          simp [apply, notify, note, entries, hs, hh, hl, hr]
  induction es generalizing s with
  | nil => exact (List.append_nil _).symm
  | cons e es ih =>
    have hr : (apply p s e).mailbox.receiving = s.mailbox.receiving := receiving_applyAll s p [e]
    rw [applyAll_cons, ih, happly, hr, listening_apply, List.flatMap_cons, List.append_assoc]

end Surroundings

end MessagePipe
