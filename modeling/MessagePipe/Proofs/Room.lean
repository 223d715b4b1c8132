import MessagePipe.Proofs.Lifecycle
import MessagePipe.Proofs.Unblocking

/-!
# Whether there is room

An end remembers that it found its watermark reached, so as not to look again with every frame
(`out_active`, §4.2 of the specification). What it remembers is a cache only: asked whether it may
write, it answers by its state and its counters, also where it took reports that were never sent, of
more messages than it wrote or of fewer than it was told before, and where its stream was moved on.
No refusal outlasts its reason.

* `isFull_eq_false_iff`: the watermark is tested on the messages ahead of the peer, of which there
  may be fewer than none. The formula is over the integers; the program subtracts with zero as the
  least difference (`is_full`), which this says is the same.
* `use_cached`, `useAll_cached`: whatever is done with an end, it finds writing worthless at the
  watermark only (`Pipe.Cached`, whose step lemma is `Reacts.cached`). A report can only bring the
  count ahead of the peer down past the mark by taking the mark away.
* `checkWrite_eq`: so the answer of `check_write` is the test of the watermark, after any history of
  an end, commands from nowhere included.
* `checkWrite_under_forgery`: an end that is told too much, moved on, told too little, and told less
  once more.

There is no premise. Where the specification has `written − peer_read == hwm`, the program tests for
at least the watermark, and for reports that were really sent the two agree (`Proofs/Tally`: no more
than the watermark is written beyond the last report).

Out of scope: counters as 64-bit words.
-/

namespace MessagePipe

namespace Pipe

/-- The watermark is tested on the messages ahead of the peer, of which there may be fewer than
none. -/
theorem isFull_eq_false_iff {p : Pipe} :
    p.isFull = false ↔ p.hwm = 0 ∨ max ((p.msgsWritten : ℤ) - p.peersMsgsRead) 0 < p.hwm := by
  unfold isFull
  rw [Bool.and_eq_false_iff, decide_eq_false_iff_not, decide_eq_false_iff_not]
  omega

end Pipe

namespace Link

/-- **No use makes an end find writing worthless below its watermark.** -/
theorem use_cached {l : Link} {s : Side} (h : (l.side s).pipe.Cached) (u : Use) :
    ((l.use s u).2.side s).pipe.Cached := by
  rcases l.use_cases s u with ⟨st, r, ht⟩ | ⟨k, i, hp⟩
  · rw [ht.own]
    exact ht.reacts.cached h
  · rw [hp]
    exact h

/-- **Nor does any number of uses.** -/
theorem useAll_cached {l : Link} {s : Side} (h : (l.side s).pipe.Cached) (us : List Use) :
    ((l.useAll s us).side s).pipe.Cached := by
  induction us generalizing l with
  | nil => exact h
  | cons u us ih => exact ih (use_cached h u)

theorem cached_of_create {config : Config} {a b : Plan} {l : Link} (h : create config a b = .ok l)
    (s : Side) : (l.side s).pipe.Cached := fun _ ho => by
  cases (unused_of_create h s).outActive.symm.trans ho

/-- **Whether writing is possible is a matter of the watermark.** Whatever was done with an end of a
fresh pair, and whatever commands it was handed, it answers that it may write exactly if it is in
operation and fewer messages than its high watermark are ahead of what its peer last reported; a
high watermark of zero bounds nothing. -/
theorem checkWrite_eq {config : Config} {a b : Plan} {l : Link} (h : create config a b = .ok l)
    (s : Side) (us : List Use) :
    let p := ((l.useAll s us).side s).pipe
    ((l.useAll s us).step (.call s .checkWrite)).1.result =
      .ok (.flag (decide (p.state = .active ∧
        (p.hwm = 0 ∨ max ((p.msgsWritten : ℤ) - p.peersMsgsRead) 0 < p.hwm)))) := by
  intro p
  obtain ⟨r, ht⟩ := (l.useAll s us).took_call s .checkWrite
  rw [ht.result, ht.reacts.checkWrite_answer (useAll_cached (cached_of_create h s) us)]
  simp only [← Pipe.isFull_eq_false_iff]
  rfl

/-- An end that may have one message ahead is refused another one. A report of more than it wrote
and a move of its stream make it find writing worthwhile; a report of less than before then puts it
back at the watermark, and a last one below. -/
theorem checkWrite_under_forgery :
    ∃ l : Link, create {} { options := {} } { options := { hwm := 1 } } = .ok l ∧
      let f : Frame := .ofBytes .empty
      let us : List Use :=
        [.occasion (.call (.write f)), .occasion (.call (.write f)),
          .occasion (.process (.activateWrite 7)),
          .occasion (.process (.hiccup (.inbound Side.b.id 1) (.inbound Side.b.id 0))),
          .obey (.activateWrite 0)]
      ((l.useAll .a us).side .a).pipe.outActive = true ∧
      ((l.useAll .a us).step (.call .a .checkWrite)).1.result = .ok (.flag false) ∧
      ((l.useAll .a (us ++ [.occasion (.call .checkWrite), .obey (.activateWrite 1)])).step
        (.call .a .checkWrite)).1.result = .ok (.flag true) := by
  have hcreate : create {} { options := {} } { options := { hwm := 1 } } = .ok _ := rfl
  refine ⟨_, hcreate, ?_⟩
  intro f us
  have hrefused := checkWrite_eq hcreate .a us
  have hadmitted :=
    checkWrite_eq hcreate .a (us ++ [.occasion (.call .checkWrite), .obey (.activateWrite 1)])
  exact ⟨by decide, hrefused.trans (by decide), hadmitted.trans (by decide)⟩

end Link

end MessagePipe
