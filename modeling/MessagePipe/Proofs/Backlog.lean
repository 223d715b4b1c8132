import Mathlib.Data.List.Perm.Basic
import MessagePipe.Proofs.Run
import MessagePipe.Proofs.Wiring

/-!
# What a command is answered by

An end that takes a command may send another one, and its peer may answer that in turn, with no
owner involved. The chains are short, since the handshake of §4.3 of the specification only ever
acknowledges: a request is answered by an acknowledgment, an acknowledgment by a last one if the end
that takes it had asked itself (`State.answersAck`), a notice of a replaced queue by a wake-up, and
nothing else is answered.

`backlogOfAll` counts commands with the answers they can still cause: a notice and a request count
double. An end that will acknowledge an acknowledgment is one more. The count of both ends together
is `Link.backlog`, and

* `Reacts.backlog_lt`: whatever command an end takes, what it sends for it, with what it may still
  be made to send, counts less than the command did, whatever the state of the end and whoever made
  the command up;
* `Link.Turned.backlog_lt`: so every command that is handed on lowers the backlog of a pair.

It is the one place where the answers to commands are counted. `Proofs/Pumping` has from it that
handing commands on ends, in any order; `Proofs/Confluence` that there is a last state, whatever the
order; `Proofs/Settling` that an exchange of any number of pairs comes to rest.

`backlogOfAll_perm` says that the order in which commands wait makes no difference to the count.
-/

namespace MessagePipe

/-- Will an end in this state answer an acknowledgment? -/
def State.answersAck (s : State) : Bool :=
  s == terminated

/-- How many commands are handed on at most because of some that arrived: one that moves a stream or
asks to terminate may be answered. -/
def backlogOfAll (cs : List Command) : Nat :=
  cs.length + cs.countP CommandOf.isHiccup + cs.count .pipeTerm

@[simp] theorem backlogOfAll_nil : backlogOfAll [] = 0 := rfl

theorem backlogOfAll_append (cs ds : List Command) :
    backlogOfAll (cs ++ ds) = backlogOfAll cs + backlogOfAll ds := by
  unfold backlogOfAll
  rw [List.length_append, List.countP_append, List.count_append]
  omega

theorem backlogOfAll_pos (c : Command) (cs : List Command) : 0 < backlogOfAll (c :: cs) := by
  unfold backlogOfAll
  rw [List.length_cons]
  omega

/-- The order in which commands arrived does not matter for what they cause. -/
theorem backlogOfAll_perm {cs ds : List Command} (h : cs.Perm ds) :
    backlogOfAll cs = backlogOfAll ds := by
  unfold backlogOfAll
  rw [h.length_eq, h.countP_eq, h.count_eq]

theorem Segments.backlogOfAll_wake_le (s : Segments Frame) : backlogOfAll s.wake ≤ 1 := by
  unfold wake
  split <;> decide

/-- A request is answered by an acknowledgment, and not by an end that will answer another one. -/
theorem State.backlog_on_peerTerm {s s' : State} {d : Bool} {a : Action}
    (h : s.on (.peerTerm d) = some (s', a)) :
    backlogOfAll a.commands + s'.answersAck.toNat < 2 + s.answersAck.toNat := by
  cases s <;> cases d <;> cases h <;> decide

/-- An acknowledgment is answered by an end that will not answer another one. -/
theorem State.backlog_on_peerTermAck {s s' : State} {a : Action}
    (h : s.on .peerTermAck = some (s', a)) :
    backlogOfAll a.commands + s'.answersAck.toNat < 1 + s.answersAck.toNat := by
  cases s <;> cases h <;> decide

/-- **What is sent for a command counts less than the command.** -/
theorem Reacts.backlog_lt {p : Pipe} {v : View} {c : Command} {r : Reaction}
    (h : Reacts p v (.command c) r) :
    backlogOfAll r.posted + r.pipe.state.answersAck.toNat <
      backlogOfAll [c] + p.state.answersAck.toNat := by
  cases h with
  | pipeTerm hon => exact State.backlog_on_peerTerm hon
  | pipeTermAck hi hon => exact State.backlog_on_peerTermAck hon
  | hiccupMoved =>
    exact Nat.add_lt_add_right (Nat.lt_succ_of_le (Segments.backlogOfAll_wake_le _)) _
  | _ => exact Nat.add_lt_add_right (backlogOfAll_pos ..) _

namespace Link

variable {l l' : Link} {s : Side} {c : Command} {r : Reaction} {rep : Report}

/-- What side `s` adds to `backlog`. -/
def backlogOf (l : Link) (s : Side) : Nat :=
  backlogOfAll (l.commands s) + (l.side s).pipe.state.answersAck.toNat

/-- How many commands can be handed on at most, with no call in between. -/
def backlog (l : Link) : Nat :=
  l.backlogOf .a + l.backlogOf .b

theorem backlog_eq (l : Link) (s : Side) : l.backlog = l.backlogOf s + l.backlogOf s.other := by
  cases s with
  | a => rfl
  | b => exact Nat.add_comm ..

/-- **A command that is taken, whichever of those that arrived, lowers the backlog.** -/
theorem Turned.backlog_lt (h : Turned l s (.command c) r rep l')
    (hp : (c :: l'.commands s).Perm (l.commands s)) : l'.backlog < l.backlog := by
  have hself : l.backlogOf s = backlogOfAll [c] + backlogOfAll (l'.commands s) +
      (l.side s).pipe.state.answersAck.toNat := by
    rw [backlogOf, ← backlogOfAll_perm hp, ← List.singleton_append, backlogOfAll_append]
  have hself' : l'.backlogOf s = backlogOfAll (l'.commands s) + r.pipe.state.answersAck.toNat := by
    rw [backlogOf, h.own]
  -- What a closed mailbox loses is taken by nobody.
  have hpeer : l'.backlogOf s.other ≤ l.backlogOf s.other + backlogOfAll r.posted := by
    rw [backlogOf, h.outbox, backlogOfAll_append, h.peer, backlogOf]
    split
    · omega
    · rw [backlogOfAll_nil]
      omega
  have hlt := h.reacts.backlog_lt
  rw [backlog_eq _ s, backlog_eq _ s]
  omega

end Link

end MessagePipe
