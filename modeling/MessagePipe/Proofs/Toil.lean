import MessagePipe.Proofs.Convergence
import MessagePipe.Proofs.Tally

/-!
# What is left to do where side `a` writes and side `b` reads

Every turn of a task takes a command, and commands are sent for a reason: a wake-up for what was
published, a report for what was read, a notice for a queue that was replaced, and two requests and
acknowledgments at most (§4.2 and §4.3 of the specification). So it can be counted what is still to
come, and `Link.toil` does so. `Proofs/Turns` shows what a turn of a task takes off it.

Unlike `Link.backlog` (`Proofs/Backlog`), which is about commands without calls, it has to pay for
the calls that tasks make between two commands.

* `State.owed`, `State.closing`: how many acknowledgments an end still owes, and how many commands a
  writer sends yet to end its stream. `State.owed_on` is what a signal does to the first.
* `Reacts.posted_le`: a reaction sends what the stimulus asks for (`Stimulus.dues`), and what was
  owed. `Reacts.countP_posted_le` counts the notices among it (`Stimulus.replacing`).
* `Link.toil`: two for each message that was written and not read, and what the commands underway
  weigh at either side, with what the ends owe.
* `Took.toil_a`, `Took.toil_b`: what a side does leaves more to do by what the stimulus asks for,
  and less by what it takes; a message that is read has been paid for.
* `Took.toil_call`, `Took.toil_read`, `Took.toil_command_a`, `Took.toil_command_b`: the same for the
  calls that tasks make and the commands they take.

Premise: of side `b` only, that it has not read more than was written; every sound pair has that.

Out of scope: side `a` reading and side `b` writing. It may be called for before the tasks take
over, and `Proofs/Rounds` bounds what it adds.
-/

namespace MessagePipe

/-! ## How many commands a reaction sends -/

/-- How many acknowledgments an end still owes its peer at most. -/
def State.owed (s : State) : Nat :=
  if s.hasReleased then 0 else 1

/-- An acknowledgment is paid for by what was owed, and a request by whoever makes it. -/
theorem State.owed_on {s s' : State} {sg : Signal} {a : Action} (h : s.on sg = some (s', a)) :
    a.commands.length + s'.owed ≤ 1 + s.owed := by
  cases move_of_on h <;> decide

theorem State.owed_on_of_ne {s s' : State} {sg : Signal} {a : Action} (h : s.on sg = some (s', a))
    (hsg : ∀ d, sg ≠ .terminate d) : a.commands.length + s'.owed ≤ s.owed := by
  cases move_of_on h with
  | ask | askDelimited => exact absurd rfl (hsg _)
  | _ => decide

theorem Segments.length_wake_le (s : Segments Frame) : s.wake.length ≤ 1 := by
  unfold wake
  split <;> simp

/-- How many commands a stimulus makes an end `p` send that reacts by `r`, what it owes apart. -/
def Stimulus.dues (p : Pipe) (r : Reaction) : Stimulus → Nat
  | .call .flush | .call .hiccup => 1
  | .call (.terminate _) => 2
  | .call .read => r.pipe.msgsRead - p.msgsRead
  | .call _ => 0
  | .command c => if c.isHiccup then 1 else 0

section Reacts

variable {p : Pipe} {v : View} {st : Stimulus} {r : Reaction}

theorem Pipe.length_report_le (p : Pipe) (f : Frame) :
    (p.report f).length ≤ (p.counted f).msgsRead - p.msgsRead := by
  unfold Pipe.report Pipe.counted
  cases f.hasMore with
  | true => exact Nat.zero_le _
  | false =>
    dsimp only
    split
    · exact (Nat.add_sub_cancel_left ..).ge
    · exact Nat.zero_le _

/-- **A reaction sends what the stimulus asks for, and what was owed.** -/
theorem Reacts.posted_le (h : Reacts p v st r) :
    r.posted.length + r.pipe.state.owed ≤ st.dues p r + p.state.owed := by
  cases h with
  | flush => exact Nat.add_le_add_right (Segments.length_wake_le _) _
  | hiccup => exact Nat.le_refl _
  | hiccupMoved => exact Nat.add_le_add_right (Segments.length_wake_le _) _
  | readFrame => exact Nat.add_le_add_right (p.length_report_le _) _
  | @lookDelimiter c _ _ _ _ _ _ hc hm hi hv hf hon =>
    exact (State.owed_on_of_ne hon nofun).trans (Nat.le_add_left ..)
  | pipeTerm hon => exact (State.owed_on_of_ne hon nofun).trans (Nat.le_add_left ..)
  | pipeTermAck hi hon => exact (State.owed_on_of_ne hon nofun).trans (Nat.le_add_left ..)
  | terminateReleased hon =>
    exact (State.owed_on hon).trans (Nat.add_le_add_right (Nat.le_succ 1) _)
  | terminateFault hon => exact (State.owed_on hon).trans (Nat.add_le_add_right (Nat.le_succ 1) _)
  | @terminate d s a q hon =>
    have howed := State.owed_on hon
    have hwake := (v q).ended.length_wake_le
    rw [List.length_append]
    dsimp only [Pipe.signalled, Stimulus.dues]
    omega
  | _ => exact (Nat.zero_add _).le.trans (Nat.le_add_left ..)

/-- How many notices of a replaced queue a stimulus makes an end send. -/
def Stimulus.replacing : Stimulus → Nat
  | .call .hiccup => 1
  | _ => 0

theorem Reacts.generation (h : Reacts p v st r) (hn : st ≠ .call .hiccup) :
    r.pipe.generation = p.generation := by
  cases h with
  | hiccup => exact absurd rfl hn
  | _ => rfl

/-- The notices that are sent are of queues that the owner replaced. -/
theorem Reacts.countP_posted_le (h : Reacts p v st r) :
    r.posted.countP CommandOf.isHiccup ≤ st.replacing := by
  rcases h.inbound_cases with ⟨-, -, hn⟩ | ⟨q, -, -, hg, hp⟩
  · rw [List.countP_eq_length_filter, hn]
    exact Nat.zero_le _
  · obtain rfl : st = .call .hiccup := by
      by_contra hn
      rw [h.generation hn] at hg
      omega
    rw [hp]
    rfl

/-! ## What is left to do -/

/-- How much is left to do because of commands, each of which counts for `k`, and a notice of a
replaced queue for `m` more. -/
def toilOfAll (k m : Nat) (cs : List Command) : Nat :=
  k * cs.length + m * cs.countP CommandOf.isHiccup

@[simp] theorem toilOfAll_nil (k m : Nat) : toilOfAll k m [] = 0 := rfl

theorem toilOfAll_append (k m : Nat) (cs ds : List Command) :
    toilOfAll k m (cs ++ ds) = toilOfAll k m cs + toilOfAll k m ds := by
  unfold toilOfAll
  rw [List.length_append, List.countP_append, Nat.mul_add, Nat.mul_add]
  omega

/-- **A reaction is worth no more than the stimulus is.** -/
theorem Reacts.toilOfAll_posted_le (h : Reacts p v st r) (k m : Nat) :
    toilOfAll k m r.posted + k * r.pipe.state.owed ≤
      k * st.dues p r + m * st.replacing + k * p.state.owed := by
  have hposted := Nat.mul_le_mul_left k h.posted_le
  have hreplaced := Nat.mul_le_mul_left m h.countP_posted_le
  rw [Nat.mul_add, Nat.mul_add] at hposted
  unfold toilOfAll
  omega

/-- How many commands a writer sends yet to end its stream. -/
def State.closing : State → Nat
  | active => 2
  | _ => 0

theorem State.closing_of_ne {s : State} (h : s ≠ .active) : s.closing = 0 := by
  cases s with
  | active => exact absurd rfl h
  | _ => rfl

/-- A stream that is ended stays so. -/
theorem Reacts.closing_le (h : Reacts p v st r) : r.pipe.state.closing ≤ p.state.closing := by
  by_cases hs : p.state = .active
  · rw [hs]
    cases r.pipe.state <;> decide
  · rw [State.closing_of_ne (h.not_active hs)]
    exact Nat.zero_le _

/-- The messages written are those that end among the frames that were accepted. -/
theorem Reacts.msgsWritten_eq (h : Reacts p v st r) :
    r.pipe.msgsWritten = p.msgsWritten + messages (st.sent [] r) := by
  cases h.counts with
  | wrote hf _ _ _ _ he =>
    subst he
    exact congrArg (p.msgsWritten + ·) (messages_singleton hf).symm
  | read _ _ _ _ he =>
    subst he
    rfl
  | told hp =>
    rw [hp]
    rfl
  | neither hc =>
    rw [hc.written, hc.sent, show ([] : List Frame).rdrop r.takenBack = [] from List.take_nil]
    rfl

theorem Reacts.msgsRead_mono (h : Reacts p v st r) : p.msgsRead ≤ r.pipe.msgsRead := by
  rw [h.msgsRead_eq]
  exact Nat.le_add_right ..

end Reacts

/-- The calls a writer makes: it asks for the end of its stream once. -/
inductive Call.OfWriter (p : Pipe) : Call → Prop where
  | write (f : Frame) : OfWriter p (.write f)
  | checkWrite : OfWriter p .checkWrite
  | flush : OfWriter p .flush
  | rollback : OfWriter p .rollback
  | terminate (d : Bool) (hs : p.state = .active) : OfWriter p (.terminate d)

/-- How many commands a call of a writer makes it send, those that end its stream apart. -/
def Call.fee : Call → Nat
  | flush => 1
  | _ => 0

/-- What a call of a writer makes it send is its fee, or ends its stream. -/
theorem Reacts.dues_of_writer {p : Pipe} {v : View} {c : Call} {r : Reaction}
    (h : Reacts p v (.call c) r) (hc : c.OfWriter p) :
    (Stimulus.call c).dues p r + r.pipe.state.closing ≤ c.fee + p.state.closing := by
  have hclosing := h.closing_le
  cases hc with
  | terminate d hs =>
    rw [hs, State.closing_of_ne h.not_active_of_terminate]
    exact Nat.le_refl _
  | _ => exact Nat.add_le_add_left hclosing _

namespace Link

/-- How much is left to do until side `b` has read what side `a` wrote and both ends are taken down.
A command to side `b` is taken by it. A command to side `a` is taken, and side `a` flushes then, so
that it counts for two; so does a message that is to be read, for it may be reported. -/
def toil (l : Link) : Nat :=
  2 * ((l.side .a).pipe.msgsWritten - (l.side .b).pipe.msgsRead) + toilOfAll 2 1 (l.commands .a) +
    toilOfAll 1 2 (l.commands .b) + (l.side .a).pipe.state.closing +
    (l.side .a).pipe.state.owed + 2 * (l.side .b).pipe.state.owed

namespace Took

variable {l l' : Link} {s : Side} {st : Stimulus} {r : Reaction} {rep : Report}

theorem toilOfAll_inbox (h : Took l s st r rep l') (k m : Nat) :
    toilOfAll k m (l.commands s) = toilOfAll k m st.taken + toilOfAll k m (l'.commands s) := by
  rw [h.inbox, toilOfAll_append]

theorem toilOfAll_outbox (h : Took l s st r rep l') (k m : Nat) :
    toilOfAll k m (l'.commands s.other) ≤
      toilOfAll k m (l.commands s.other) + toilOfAll k m r.posted := by
  rw [h.outbox, toilOfAll_append]
  split
  · exact Nat.le_refl _
  · exact Nat.add_le_add_left (Nat.zero_le _) _

/-- **What side `a` does leaves more to do by what the stimulus asks for,** and less by what it
takes. -/
theorem toil_a (h : Took l .a st r rep l') :
    l'.toil + toilOfAll 2 1 st.taken + (l.side .a).pipe.state.closing ≤
      l.toil + st.dues (l.side .a).pipe r + 2 * st.replacing + r.pipe.state.closing +
        2 * messages (st.sent [] r) := by
  have hpeer : (l'.side .b).pipe = (l.side .b).pipe := h.peer
  have hin := h.toilOfAll_inbox 2 1
  have hout : toilOfAll 1 2 (l'.commands .b) ≤ toilOfAll 1 2 (l.commands .b) + _ :=
    h.toilOfAll_outbox 1 2
  have hposted := h.reacts.toilOfAll_posted_le 1 2
  have hwritten := h.reacts.msgsWritten_eq
  rw [toil, toil, hpeer, h.own]
  omega

/-- **So does what side `b` does,** and what it reads is paid for. -/
theorem toil_b (h : Took l .b st r rep l')
    (hle : r.pipe.msgsRead ≤ (l.side .a).pipe.msgsWritten) :
    l'.toil + toilOfAll 1 2 st.taken + 2 * (r.pipe.msgsRead - (l.side .b).pipe.msgsRead) ≤
      l.toil + 2 * st.dues (l.side .b).pipe r + st.replacing := by
  have hpeer : (l'.side .a).pipe = (l.side .a).pipe := h.peer
  have hin := h.toilOfAll_inbox 1 2
  have hout : toilOfAll 2 1 (l'.commands .a) ≤ toilOfAll 2 1 (l.commands .a) + _ :=
    h.toilOfAll_outbox 2 1
  have hposted := h.reacts.toilOfAll_posted_le 2 1
  have hread := h.reacts.msgsRead_mono
  rw [toil, toil, hpeer, h.own]
  omega

/-- A call of the writer leaves more to do by its fee, and by the message it completes. -/
theorem toil_call {c : Call} (h : Took l .a (.call c) r rep l')
    (hc : c.OfWriter (l.side .a).pipe) :
    l'.toil ≤ l.toil + c.fee + 2 * messages (c.accepted rep.result) := by
  have htoil := h.toil_a
  have hdues := h.reacts.dues_of_writer hc
  have hreplacing : (Stimulus.call c).replacing = 0 := by cases hc <;> rfl
  have hsent : messages ((Stimulus.call c).sent [] r) ≤ messages (c.accepted rep.result) := by
    rw [h.result]
    exact (List.take_sublist ..).countP_le
  rw [Stimulus.taken, toilOfAll_nil, hreplacing] at htoil
  omega

/-- A command that the writer takes pays for being taken, for a flush, and for an answer. -/
theorem toil_command_a {c : Command} (h : Took l .a (.command c) r rep l') :
    l'.toil + 2 ≤ l.toil := by
  have htoil := h.toil_a
  have hclosing := h.reacts.closing_le
  have hdues : (Stimulus.command c).dues (l.side .a).pipe r + 2 = toilOfAll 2 1 [c] := by
    unfold Stimulus.dues toilOfAll
    cases c <;> rfl
  have hreplacing : (Stimulus.command c).replacing = 0 := rfl
  have hsent : messages ((Stimulus.command c).sent [] r) = 0 := rfl
  rw [Stimulus.taken, hreplacing, hsent] at htoil
  omega

/-- A command that the reader takes pays for being taken, and for an answer. -/
theorem toil_command_b {c : Command} (h : Took l .b (.command c) r rep l')
    (hle : r.pipe.msgsRead ≤ (l.side .a).pipe.msgsWritten) : l'.toil + 1 ≤ l.toil := by
  have htoil := h.toil_b hle
  have hdues : 2 * (Stimulus.command c).dues (l.side .b).pipe r + 1 = toilOfAll 1 2 [c] := by
    unfold Stimulus.dues toilOfAll
    cases c <;> rfl
  have hreplacing : (Stimulus.command c).replacing = 0 := rfl
  rw [Stimulus.taken, hreplacing] at htoil
  omega

/-- Reading is paid for by what is read. -/
theorem toil_read (h : Took l .b (.call .read) r rep l')
    (hle : r.pipe.msgsRead ≤ (l.side .a).pipe.msgsWritten) : l'.toil ≤ l.toil := by
  have htoil := h.toil_b hle
  have hreplacing : (Stimulus.call Call.read).replacing = 0 := rfl
  rw [Stimulus.taken, toilOfAll_nil, Stimulus.dues, hreplacing] at htoil
  omega

end Took

end Link

end MessagePipe
