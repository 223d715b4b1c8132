import MessagePipe.Queue.Segments

/-!
# Histories of a queue

A queue answers a list of requests as its segments do: whatever is asked of a fresh one, in whatever
order by either end, nothing tells it from three lists and a flag (§4.1 and §8 of the specification:
all-or-nothing batches, first in first out, and a wake-up where the reader had parked). The five
positions and the shared point of a `Queue` stay behind `Queue.segments`.

`Queue.serveAll` does one request after the other; `Segments.serveAll` is its counterpart over
lists. That operations are data (`Queue/Request`) is what makes a statement about every history one
about every list of requests.

* `Queue.serve_segments`: one request is answered from the segments alone, and leaves the segments
  that are to be left. It has one case for each of the seven operations, and each of them is a law
  of `Queue/Segments`.
* `Queue.serveAll_segments`: so is any number of them.
* `Queue.wakeUps_add`: a flush tells of a parked reader once for each time the reader parks.
  `idle_serve` is its step: a request wakes a reader that had parked, or parks one that had not, or
  neither.
* `Queue.refines_segments`: both, for every history of a fresh queue.

There is no premise: a reader may look again after it parked, and a writer take back what was never
published.

Out of scope: ends that are dropped (`Proofs/Custody`), and the nodes behind the positions
(`Proofs/Linked`). That two threads act at once is an interleaving of whole operations, as said in
`Queue/Basic`.
-/

namespace MessagePipe

universe u

variable {α : Type u}

/-- Does operations one after the other, and gives their results. -/
def Segments.serveAll (s : Segments α) :
    List (Queue.Request α) → List (Queue.Response α) × Segments α
  | [] => ([], s)
  | r :: rs =>
    let (response, s) := s.serve r
    let (responses, s) := s.serveAll rs
    (response :: responses, s)

theorem Segments.serveAll_cons (s : Segments α) (r : Queue.Request α)
    (rs : List (Queue.Request α)) : s.serveAll (r :: rs) =
      ((s.serve r).1 :: ((s.serve r).2.serveAll rs).1, ((s.serve r).2.serveAll rs).2) :=
  rfl

namespace Queue

/-- Does operations one after the other, and gives their results. -/
def serveAll (q : Queue α) : List (Request α) → List (Response α) × Queue α
  | [] => ([], q)
  | r :: rs =>
    let (response, q) := q.serve r
    let (responses, q) := q.serveAll rs
    (response :: responses, q)

/-! ## Answers -/

/-- **A request is answered from the segments alone, and the segments tell what is left.** -/
theorem serve_segments (q : Queue α) (r : Request α) :
    (q.serve r).1 = (q.segments.serve r).1 ∧ (q.serve r).2.segments = (q.segments.serve r).2 := by
  cases r with
  | write x incomplete => exact ⟨rfl, segments_write q x incomplete⟩
  | unwrite => exact (segments_unwrite q).imp_left (congrArg Response.item)
  | flush => exact (segments_flush q).imp_left (congrArg Response.flag)
  | hasUnflushed => exact ⟨congrArg Response.flag (hasUnflushed_eq q), rfl⟩
  | checkRead => exact (segments_checkRead q).imp_left (congrArg Response.flag)
  | probe => exact (segments_probe q).imp_left (congrArg Response.item)
  | read => exact (segments_read q).imp_left (congrArg Response.item)

theorem serveAll_cons (q : Queue α) (r : Request α) (rs : List (Request α)) :
    q.serveAll (r :: rs) =
      ((q.serve r).1 :: ((q.serve r).2.serveAll rs).1, ((q.serve r).2.serveAll rs).2) :=
  rfl

theorem serveAll_segments (q : Queue α) (rs : List (Request α)) :
    (q.serveAll rs).1 = (q.segments.serveAll rs).1 ∧
      (q.serveAll rs).2.segments = (q.segments.serveAll rs).2 := by
  induction rs generalizing q with
  | nil => exact ⟨rfl, rfl⟩
  | cons r rs ih =>
    obtain ⟨h1, h2⟩ := serve_segments q r
    obtain ⟨i1, i2⟩ := ih (q.serve r).2
    rw [h2] at i1 i2
    rw [serveAll_cons, Segments.serveAll_cons]
    exact ⟨by rw [h1, i1], i2⟩

/-! ## Parking and being woken -/

/-- Was a parked reader to be told of a request that was answered so? -/
def Request.wakes : Request α → Response α → Bool
  | .flush, .flag told => told
  | _, _ => false

/-- How many flushes found the reader parked. -/
def wakeUps (q : Queue α) : List (Request α) → Nat
  | [] => 0
  | r :: rs => (r.wakes (q.serve r).1).toNat + (q.serve r).2.wakeUps rs

/-- How many times the reader parked that had not. -/
def parkings (q : Queue α) : List (Request α) → Nat
  | [] => 0
  | r :: rs => (!q.idle && (q.serve r).2.idle).toNat + (q.serve r).2.parkings rs

/-- One request wakes a reader that had parked, or parks one that had not, or neither. -/
theorem idle_serve (q : Queue α) (r : Request α) :
    (r.wakes (q.serve r).1).toNat + (q.serve r).2.idle.toNat =
      (!q.idle && (q.serve r).2.idle).toNat + q.idle.toNat := by
  obtain ⟨h1, h2⟩ := serve_segments q r
  rw [h1, idle_eq (q.serve r).2, h2, idle_eq q]
  generalize q.segments = s
  cases r with
  | write x incomplete =>
    simp only [Segments.serve, Segments.write, Request.wakes]
    cases incomplete <;> cases s.idle <;> rfl
  | unwrite =>
    simp only [Segments.serve, Segments.unwrite, Request.wakes]
    cases s.idle <;> rfl
  | flush =>
    simp only [Segments.serve, Segments.flush, Request.wakes]
    split <;> cases s.idle <;> rfl
  | hasUnflushed =>
    simp only [Segments.serve, Request.wakes]
    cases s.idle <;> rfl
  | checkRead | probe | read =>
    simp only [Segments.serve, Segments.checkRead, Segments.probe, Segments.read, Segments.park,
      Request.wakes]
    cases s.idle <;> cases s.visible.isEmpty <;> rfl

/-- **A flush finds the reader parked once for each time it parks,** the last time apart as long as
the reader stays parked. -/
theorem wakeUps_add (q : Queue α) (rs : List (Request α)) :
    q.wakeUps rs + (q.serveAll rs).2.idle.toNat = q.parkings rs + q.idle.toNat := by
  induction rs generalizing q with
  | nil => rfl
  | cons r rs ih =>
    have hr := idle_serve q r
    have hrs := ih (q.serve r).2
    rw [serveAll_cons, wakeUps, parkings]
    dsimp only
    omega

/-- **Nothing tells a queue from its segments.** Every request made of a fresh queue is answered as
by three empty lists and a flag that is not set, and after any number of requests the queue holds
what the lists hold and its reader shows the flag. A flush answers yes once for each time the reader
parks. -/
theorem refines_segments (rs : List (Request α)) :
    ((empty : Queue α).serveAll rs).1 = (({} : Segments α).serveAll rs).1 ∧
      ((empty : Queue α).serveAll rs).2.segments = (({} : Segments α).serveAll rs).2 ∧
      describeReader ((empty : Queue α).serveAll rs).2.idle =
        describeReader (({} : Segments α).serveAll rs).2.idle ∧
      (empty : Queue α).wakeUps rs + ((empty : Queue α).serveAll rs).2.idle.toNat =
        (empty : Queue α).parkings rs := by
  obtain ⟨h1, h2⟩ := serveAll_segments (empty : Queue α) rs
  rw [segments_empty] at h1 h2
  refine ⟨h1, h2, ?_, ?_⟩
  · rw [idle_eq, h2]
  · exact wakeUps_add (empty : Queue α) rs

/-- The reader parks, is woken by the flush of a message and not by that of the next one. -/
example : ((empty : Queue Nat).serveAll
    [.read, .write 1 true, .flush, .write 2 false, .flush, .write 3 false, .flush, .read]).1 =
      [.item none, .done, .flag false, .done, .flag true, .done, .flag false, .item (some 1)] := by
  decide

end Queue

end MessagePipe
