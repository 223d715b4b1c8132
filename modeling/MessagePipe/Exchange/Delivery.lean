import MessagePipe.Exchange.Basic
import MessagePipe.Missing

/-!
# Handing pending commands to their pipes

An owner hands on its pending commands one by one, in any order it likes (`Exchange.deliver`), or
all owners theirs in turn until none is left (`Exchange.pump`), as the owner loops of §6 of the
specification do. A command is for the pipe it names; it can also be handed to another one, as an
owner with a bug might. A command for a pipe that is gone is taken and nothing comes of it.

Pumping ends: a command that is handed on makes at most one new one, and a chain of answers stops
after the last acknowledgment. `Exchange.backlog` bounds how many are handed on; it is the fuel of
`Exchange.pumpFrom`. That this is always enough is proved, not assumed: `Exchange.isIdle_of_pump` in
`Proofs/Settling` says that nobody has a command left, unless a fault ended the pumping, and
`Exchange.pump_eq` that any larger bound gives the same.

A fault ends the pumping where it is raised, with the commands behind it still pending. The list of
commands handed on has those that found no pipe, too.
-/

namespace MessagePipe

namespace Exchange

/-- Lets a pipe take a command. -/
def process (x : Exchange) (s : Station) (command : Command) : Except Fault Unit × Exchange :=
  x.use s fun t => t.process command

/-- Takes the `i`-th pending command of owner `o`. -/
def takePending (x : Exchange) (o : OwnerId) (i : Nat) : Option (Envelope × Exchange) :=
  match x.owners[o]? with
  | none => none
  | some owner =>
    match owner.pending[i]? with
    | none => none
    | some e =>
      some (e, { x with
        owners := x.owners.set o { owner with pending := owner.pending.eraseIdx i } })

/-- What came of handing on a command. -/
inductive Delivery where
  /-- There was none. -/
  | empty
  /-- The pipe it was for is gone, and so is the command. -/
  | noPipe
  /-- The pipe took it. -/
  | done (pipe : PipeId) (command : CommandView)
  /-- The pipe took it for a breach of the handshake. -/
  | fault (pipe : PipeId) (fault : Fault)

/-- Hands the `i`-th pending command of owner `o` to the pipe it is for, or to another one. -/
def deliver (x : Exchange) (o : OwnerId) (i : Nat) (redirect : Option PipeId) :
    Delivery × Exchange :=
  match x.takePending o i with
  | none => (.empty, x)
  | some (e, x) =>
    let target := redirect.getD e.target
    match x.station? target with
    | none => (.noPipe, x)
    | some s =>
      match x.process s e.command with
      | (.ok (), x') => (.done target (Command.view x.queues e.command), x')
      | (.error fault, x') => (.fault target fault, x')

/-! ## All of them -/

/-- How many deliveries a pending command can cause: its own, and that of the answer where its kind
is answered. -/
def weight (e : Envelope) : Nat :=
  match e.command with
  | .hiccup .. | .pipeTerm => 2
  | _ => 1

/-- How many commands can still be handed on before the exchange comes to rest: those pending, the
answers to them, and one answer of each pipe that will acknowledge an acknowledgment
(`pump_eq`). -/
def backlog (x : Exchange) : Nat :=
  (x.owners.flatMap Owner.pending).foldl (fun n e => n + weight e)
    (x.stations.countP fun s => s.pipe.state = .terminated)

/-- The first owner with a pending command, from `o` on and then from the start. -/
def nextOwner? (x : Exchange) (o : OwnerId) : Option OwnerId :=
  let count := x.owners.length
  let busy := fun o => !(x.owners.getD o {}).pending.isEmpty
  ((List.range' o (count - o)) ++ List.range o).find? busy

/-- Hands on the pending commands of one owner after the other, from `o` on, at most `n`, until
none is left anywhere or a fault ends it. The commands handed on are added to `handed`. -/
def pumpFrom : Nat → OwnerId → Array (PipeId × String) → Exchange →
    Except Fault (Array (PipeId × String)) × Exchange
  | 0, _, handed, x => (.ok handed, x)
  | n + 1, o, handed, x =>
    match x.nextOwner? o with
    | none => (.ok handed, x)
    | some o =>
      match x.takePending o 0 with
      | none => (.ok handed, x)
      | some (e, x) =>
        let handed := handed.push (e.target, e.command.name)
        match x.station? e.target with
        | none => pumpFrom n o handed x.collect
        | some s =>
          match x.process s e.command with
          | (.error fault, x) => (.error fault, x)
          | (.ok (), x) => pumpFrom n o handed x.collect

/-- Hands on pending commands until none is left, owner by owner; the result lists them. -/
def pump (x : Exchange) : Except Fault (Array (PipeId × String)) × Exchange :=
  pumpFrom x.backlog 0 #[] x

end Exchange

end MessagePipe
