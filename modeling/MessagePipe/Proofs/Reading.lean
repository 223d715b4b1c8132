import MessagePipe.Proofs.Tasks
import MessagePipe.Transfer.Reader

/-!
# What the reading task does

The reader of the throughput program (§11.5 of the specification) reads until its pipe has nothing
more, and then waits for a command. Its account is of the frames it read (`ReaderStats.Counts`):
messages, frames and bytes; wake-ups are counted apart. It waits only where it found nothing left to
read (`ReaderWaits`).

* `Reacts.read_cases`: a read takes the frame at the head, or leaves an endpoint that does not look
  again before it is told to.
* `exists_readFrames`: frames are read until none is left, by `n` attempts where there are fewer.
* `length_visible_lt_readable`, `readFrames_of_readable_le`: the task tries `readable` times, which
  is often enough: it would find no more by trying longer. So the bound on its loop is never what
  ends it.
* `exists_read`: it reads without a fault, until it finds nothing, and its account is then of all it
  read.
* `serves_reading`: so it serves (`Transfer.Behaviour.Serves`, in `Proofs/Tasks`): what holds of it
  in each phase is kept by every command it takes, up to the one that takes its pipe down.
* `ReaderHolds.of_spares`: and what holds of it is nothing the writer changes.

The proofs are about a `Scene`: the link the task drives and the pair that goes along with it.
Everything a call does is taken from `Scene.exists_call`, so no operation of a pipe is opened here.

Premise: the pair is one-way (`Proofs/OneWay`), with the reading side made with delay.

Out of scope: elapsed time and rate.
-/

namespace MessagePipe

/-- A read takes the frame at the head, or leaves an endpoint that does not look again before it is
told to. -/
theorem Reacts.read_cases {p : Pipe} {v : View} {r : Reaction} (h : Reacts p v (.call .read) r) :
    r.result = .ok .nothing ∧ r.pipe.mayRead = false ∨
      ∃ q f fs, p.inbound = some q ∧ (v q).visible = f :: fs ∧ f.isDelimiter = false ∧
        r.result = .ok (.frame f) ∧ r.pipe.inbound = some q ∧ (r.view q).visible = fs := by
  cases h with
  | lookIdle hc hm =>
    cases hc
    exact .inl ⟨rfl, hm⟩
  | readClosed => exact .inl ⟨rfl, rfl⟩
  | lookDry hc =>
    cases hc
    exact .inl ⟨rfl, rfl⟩
  | @lookDelimiter _ _ _ _ _ s a hc hm hi hv hf hon =>
    cases hc
    refine .inl ⟨rfl, ?_⟩
    have hr : s.isReadable = false := by cases hs : p.state <;> rw [hs] at hon <;> cases hon <;> rfl
    rw [Pipe.mayRead, Bool.and_eq_false_iff]
    exact .inr hr
  | readFrame hm hi hv hf =>
    exact .inr ⟨_, _, _, hi, hv, hf, rfl, hi, View.visible_update_self ..⟩

namespace Transfer

/-- The account is of the given frames. -/
structure ReaderStats.Counts (stats : ReaderStats) (fs : List Frame) : Prop where
  messages : stats.messages = MessagePipe.messages fs
  frames : stats.frames = fs.length
  bytes : stats.bytes = totalSize fs

namespace ReaderStats.Counts

variable {stats : ReaderStats} {fs : List Frame}

theorem nil : Counts {} [] := ⟨rfl, rfl, rfl⟩

/-- One more frame counts for itself. -/
theorem add (h : stats.Counts fs) {f : Frame} (hf : f.isDelimiter = false) :
    (stats.add f).Counts (fs ++ [f]) where
  messages := by
    rw [messages_append, messages_singleton hf, ← h.messages, ReaderStats.add]
    cases f.hasMore <;> rfl
  frames := by
    rw [List.length_append, ← h.frames]
    rfl
  bytes := by
    rw [totalSize_append, ← h.bytes]
    rfl

/-- Wake-ups are counted apart. -/
theorem hear (h : stats.Counts fs) (es : List Event) :
    (es.foldl reading.hear stats).Counts fs := by
  induction es generalizing stats with
  | nil => exact h
  | cons e es ih =>
    refine ih ?_
    unfold reading
    dsimp only
    split
    · exact ⟨h.messages, h.frames, h.bytes⟩
    · exact h

end ReaderStats.Counts

open Scene (Spares Works)

variable {y : Scene} {stats : ReaderStats}

/-- Frames are read until none is left, by `n` attempts where there are less. -/
theorem exists_readFrames (n : Nat) (hn : 0 < n)
    (hv : ∀ q, (y.pair.pipe .b).inbound = some q → (y.pair.view q).visible.length < n)
    (hc : stats.Counts (y.pair.obtained .b)) :
    ∃ stats' z, readFrames n stats y.link = (.ok stats', Scene.link z) ∧ Works .b y z ∧
      stats'.Counts (z.pair.obtained .b) ∧ (z.pair.pipe .b).mayRead = false := by
  induction n generalizing stats y with
  | zero => exact absurd hn (Nat.lt_irrefl 0)
  | succ n ih =>
    obtain ⟨r, z, es, ht, he⟩ := y.exists_call .read
    have hworks := ht.works
    have hobtained := ht.obtained
    rw [readFrames, he]
    obtain ⟨hres, hm⟩ | ⟨q, f, fs, hi, hvis, hf, hres, hi', hvis'⟩ := ht.reacts.read_cases
    · rw [Stimulus.received, hres] at hobtained
      refine ⟨stats, z, by rw [hres], hworks, ?_, by rw [ht.own]; exact hm⟩
      rw [hobtained]
      exact (List.append_nil _).symm ▸ hc
    · have hlt := hv q hi
      rw [hvis, List.length_cons] at hlt
      rw [Stimulus.received, hres] at hobtained
      obtain ⟨stats', w, hrun, hworks', hrest⟩ := @ih z (stats.add f)
        (by omega) (fun q' hq' => by
          rw [ht.own, hi'] at hq'
          rw [ht.view, ← Option.some.inj hq', hvis']
          omega)
        (by rw [hobtained]; exact hc.add hf)
      refine ⟨stats', w, ?_, hworks.trans hworks', hrest⟩
      rw [hres]
      exact hrun

/-- There are at most as many frames to read as the task tries to. -/
theorem length_visible_lt_readable {l : Link} {q : QueueId}
    (hi : (l.side .b).pipe.inbound = some q) : (l.view q).visible.length < readable l := by
  have hi : l.b.pipe.inbound = some q := hi
  rw [readable, hi, Link.view, Queues.view, Queue.length_visible]
  have := (l.queues.get q).flushed_le
  have := (l.queues.get q).complete_le
  dsimp only
  omega

theorem readable_pos (l : Link) : 0 < readable l := by
  unfold readable
  split <;> exact Nat.succ_pos _

/-- Who has tried so often that nothing is left finds nothing by trying more. -/
theorem readFrames_add {l : Link} (n k : Nat) (hn : 0 < n)
    (hv : ∀ q, (l.side .b).pipe.inbound = some q → (l.view q).visible.length < n) :
    readFrames (n + k) stats l = readFrames n stats l := by
  induction n generalizing stats l with
  | zero => exact absurd hn (Nat.lt_irrefl 0)
  | succ n ih =>
    obtain ⟨r, ht⟩ := l.took_call .b .read
    have hres : (l.call .b .read).1.result = r.result := ht.result
    have hown : ((l.call .b .read).2.side .b).pipe = r.pipe := ht.own
    have hview : (l.call .b .read).2.view = r.view := ht.view
    rw [Nat.succ_add, readFrames, readFrames]
    generalize l.call .b .read = o at hres hown hview ⊢
    obtain ⟨⟨result, effects⟩, l'⟩ := o
    obtain rfl : result = r.result := hres
    obtain ⟨hnone, -⟩ | ⟨q, f, fs, hi, hvis, -, hframe, hi', hvis'⟩ := ht.reacts.read_cases
    · rw [hnone]
    · have hlt := hv q hi
      rw [hvis, List.length_cons] at hlt
      rw [hframe]
      refine ih (by omega) fun q' hq' => ?_
      rw [hown, hi'] at hq'
      rw [hview, ← Option.some.inj hq', hvis']
      omega

/-- **The reading task tries often enough:** it would find no more by trying longer. -/
theorem readFrames_of_readable_le (l : Link) {n : Nat} (hn : readable l ≤ n) :
    readFrames n stats l = readFrames (readable l) stats l := by
  obtain ⟨k, rfl⟩ := Nat.exists_eq_add_of_le hn
  exact readFrames_add _ k (readable_pos l) fun _ => length_visible_lt_readable

/-- **The reading task works without a fault,** until nothing is left to read. -/
theorem exists_read (hc : stats.Counts (y.pair.obtained .b)) :
    ∃ stats' z, reading.work stats y.link = (.ok stats', Scene.link z) ∧ Works .b y z ∧
      stats'.Counts (z.pair.obtained .b) ∧ (z.pair.pipe .b).mayRead = false :=
  exists_readFrames (readable y.link) (readable_pos _)
    (fun _ hi => y.view_eq ▸ length_visible_lt_readable (by rwa [y.pipe_eq])) hc

/-- Where the reading task waits: it found nothing left to read. -/
structure ReaderWaits (stats : ReaderStats) (x : Pair) : Prop where
  counts : stats.Counts (x.obtained .b)
  idle : (x.pipe .b).mayRead = false

/-- To take a command reads nothing. -/
theorem ReaderWaits.take {z : Scene} {c : Command} {r : Reaction} (h : ReaderWaits stats y.pair)
    (hz : y.Takes .b (.command c) r z) :
    (r.events.foldl reading.hear stats).Counts (z.pair.obtained .b) := by
  rw [hz.obtained, Stimulus.received, List.append_nil]
  exact h.counts.hear _

/-- What holds of the reading task, phase by phase. -/
def ReaderHolds : Phase → ReaderStats → Pair → Prop
  | .unstarted, stats, x => stats.Counts (x.obtained .b)
  | .waiting, stats, x => ReaderWaits stats x
  | .finished, stats, x => stats.Counts (x.obtained .b)
  | .failed _, _, _ => False

/-- **The reading task serves,** whatever it is told. -/
theorem serves_reading : reading.Serves ReaderHolds where
  starts {stats y} hw := by
    obtain ⟨stats', z, hrun, hworks, hcounts, hidle⟩ := exists_read hw
    exact ⟨stats', z, hrun, hworks, hcounts, hidle⟩
  ends {stats y z c r} hw hz hterm := ReaderWaits.take hw hz
  works {stats y z c r} hw hz hterm := by
    obtain ⟨stats', w, hrun, hworks, hcounts, hidle⟩ := exists_read (ReaderWaits.take hw hz)
    exact ⟨stats', w, hrun, hworks, hcounts, hidle⟩

/-- What holds of the reading task is nothing the writer changes. -/
theorem ReaderHolds.of_spares {phase : Phase} {z : Scene} (h : ReaderHolds phase stats y.pair)
    (hz : Spares .a y z) : ReaderHolds phase stats z.pair := by
  have hpipe : z.pair.pipe .b = y.pair.pipe .b := hz.pipe
  have hobtained : z.pair.obtained .b = y.pair.obtained .b := hz.obtained
  have hcounts : stats.Counts (y.pair.obtained .b) → stats.Counts (z.pair.obtained .b) :=
    fun h => by
      rw [hobtained]
      exact h
  cases phase with
  | unstarted => exact hcounts h
  | waiting =>
    replace h : ReaderWaits stats y.pair := h
    exact ⟨hcounts h.counts, by rw [hpipe]; exact h.idle⟩
  | finished => exact hcounts h
  | failed => exact h

end Transfer

end MessagePipe
