import MessagePipe.Command
import MessagePipe.Frame

/-!
# All queues, by name

Ends of queues travel inside commands, so a queue is reached by its name. `Queues` holds the frames
of every queue; one that was never touched is empty. The laws are those of a table: `get_set_self`,
`get_set_of_ne`, `set_set`.

A name (`QueueId`) is that of the endpoint that reads the queue with the number of queues it had
before, or a number for a queue that belongs to no pipe. So a pipe that replaces its inbound queue
makes up the name of the new one by itself (`Turn.hiccup`), and no two pipes can make up the same.
In the program an end is the queue, and a notice carries the two ends it is about; here it carries
their names, and `Command.view` looks up what an end shows of itself when it is printed.

Where the program drops an end, a pipe here forgets a name: one that gave up its outbound queue has
`none` in its place, and what the queue holds stays in the table, where the peer still reads it. The
memory that is freed with the second end is the subject of `Queue/Ends`.
-/

namespace MessagePipe

/-- The contents of every queue. -/
structure Queues where
  /-- The queues that were touched, each once. -/
  entries : List (QueueId × Queue Frame) := []

namespace Queues

/-- No queue was touched. -/
def empty : Queues := {}

instance : Inhabited Queues := ⟨empty⟩

/-- The entry of a name, where there is one. -/
def lookup (id : QueueId) : List (QueueId × Queue Frame) → Queue Frame
  | [] => .empty
  | (id', q) :: rest => if id' = id then q else lookup id rest

/-- The entries with another queue under a name. -/
def insert (id : QueueId) (q : Queue Frame) :
    List (QueueId × Queue Frame) → List (QueueId × Queue Frame)
  | [] => [(id, q)]
  | (id', q') :: rest => if id' = id then (id, q) :: rest else (id', q') :: insert id q rest

/-- The queue of the given name. -/
def get (qs : Queues) (id : QueueId) : Queue Frame :=
  lookup id qs.entries

/-- Changes the queue of the given name. -/
def set (qs : Queues) (id : QueueId) (q : Queue Frame) : Queues :=
  ⟨insert id q qs.entries⟩

@[simp] theorem get_empty (id : QueueId) : empty.get id = .empty := rfl

@[simp] theorem get_set_self (qs : Queues) (id : QueueId) (q : Queue Frame) :
    (qs.set id q).get id = q := by
  obtain ⟨entries⟩ := qs
  simp only [get, set]
  induction entries with
  | nil => simp [insert, lookup]
  | cons e rest ih =>
    obtain ⟨id', q'⟩ := e
    by_cases h : id' = id <;> simp [insert, lookup, h, ih]

theorem get_set_of_ne (qs : Queues) {id id' : QueueId} (q : Queue Frame) (h : id' ≠ id) :
    (qs.set id q).get id' = qs.get id' := by
  obtain ⟨entries⟩ := qs
  simp only [get, set]
  induction entries with
  | nil => simp [insert, lookup, h.symm]
  | cons e rest ih =>
    obtain ⟨id'', q''⟩ := e
    by_cases h' : id'' = id
    · subst h'
      simp [insert, lookup, h.symm]
    · by_cases h'' : id'' = id'
      · subst h''
        simp [insert, lookup, h']
      · simp [insert, lookup, h', h'', ih]

/-- What a queue is changed to last is what it is. -/
theorem set_set (qs : Queues) (id : QueueId) (q q' : Queue Frame) :
    (qs.set id q).set id q' = qs.set id q' := by
  obtain ⟨entries⟩ := qs
  simp only [set, mk.injEq]
  induction entries with
  | nil => simp [insert]
  | cons e rest ih =>
    obtain ⟨id', q''⟩ := e
    by_cases h : id' = id <;> simp [insert, h, ih]

end Queues

/-- How a command looks, given the queues whose ends it carries. -/
def Command.view (qs : Queues) (c : Command) : CommandView :=
  c.mapEnds (fun writer => (qs.get writer).hasUnflushed) (fun retired => (qs.get retired).idle)

/-- How an envelope looks, given the queues whose ends it carries. -/
def Envelope.view (qs : Queues) (e : Envelope) : EnvelopeView :=
  { target := e.target, command := Command.view qs e.command }

end MessagePipe
