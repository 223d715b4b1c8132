import MessagePipe.Proofs.Stream

/-!
# Every frame is delivered once and in order

First in, first out, with no loss and no duplication (§8 of the specification). What one end wrote
and did not take back reaches the other end as it was written: through flushes, replaced queues and
termination, in whatever order the owners do things.

* `Trace.sent` and `Trace.received` (`Proofs/Run`) read off the trace what a side wrote and did not
  take back, by a rollback of its owner or by the one that is part of `terminate`, and what a side
  read.
* `delivery`: at any moment of any run, what was read is an initial part of what was written, and no
  delimiter is in it. While the reader still reads, the writer has an outbound queue, and what was
  written is what was read with what that queue holds: the published frames first, then those that
  were not published, the delimiter left out.
* `delivery_through_hiccup`: a run with a rollback in which the queue is replaced while a message is
  underway.

The work is done in `Proofs/Stream`: `Pair.Sound` says of either direction which queue is fed, and
what the queues before it still hold, however many notices are underway; every reaction keeps it.
Here it is read for the trace.

There is no premise on mailboxes: with a mailbox that closes, commands are lost and the initial part
may stay one for good, but nothing is read out of order or twice.

Out of scope: frames an owner hands to a pipe that refuses them; the pipe never had them.
-/

namespace MessagePipe.Link

/-- **What an end read is an initial part of what the other end wrote; the rest is in the queue fed
by then.** Delimiters are never read. -/
theorem delivery {config : Config} {a b : Plan} {may : Link → Step → Prop} {tr : Trace} {l : Link}
    (h : Run config a b may tr l) (s : Side) :
    tr.received s.other <+: tr.sent s ∧
      (∀ f ∈ tr.received s.other, f.isDelimiter = false) ∧
      ((l.side s.other).pipe.state.isReadable = true →
        ∃ q, (l.side s).pipe.outbound = some q ∧
          tr.sent s = tr.received s.other ++ (l.view q).data) := by
  obtain ⟨x, hf, hx⟩ := h.exists_sound
  have hl := hx.lanes s
  have hp : tr.received s.other <+: tr.sent s := by
    rw [← hf.obtained, ← hf.written]
    exact hl.obtained_of_written
  refine ⟨hp, fun f hm => ?_, fun hr => ?_⟩
  · have hc := hl.clean f
    rw [show (x.lane s).written = tr.sent s from hf.written s] at hc
    exact hc (hp.subset hm)
  · rw [← hf.pipe] at hr
    obtain ⟨g, -, ho⟩ := hx.fed_of_readable hr
    rw [Side.other_other] at ho
    obtain ⟨g', he, -, hflow⟩ := hx.flows_of_outbound ho
    rw [he] at ho
    rw [← hf.pipe, ← hf.obtained, ← hf.written, ← hf.view]
    exact ⟨_, ho, hflow.books⟩

/-- A message is read, one is taken back, and one is still in the queue that came with a hiccup. -/
theorem delivery_through_hiccup :
    ∃ (tr : Trace) (l : Link), OpenRun {} { options := {} } { options := {} } tr l ∧
      tr.sent .a = [.ofBytes ⟨#[1]⟩, .ofBytes ⟨#[3]⟩] ∧ tr.received .b = [.ofBytes ⟨#[1]⟩] ∧
      ∃ q, (l.side .a).pipe.outbound = some q ∧
        tr.sent .a = tr.received .b ++ (l.view q).data := by
  have h : OpenRun {} { options := {} } { options := {} } _ _ := run_of_steps rfl
    [.call .a (.write (.ofBytes ⟨#[1]⟩)), .call .a .flush,
      .call .a (.write (.withMore (.ofBytes ⟨#[2]⟩))), .call .b .hiccup, .call .a .rollback,
      .deliver .a, .call .a (.write (.ofBytes ⟨#[3]⟩)), .call .b .read]
    ⟨rfl, rfl, rfl, rfl, rfl, rfl, rfl, rfl, trivial⟩
  exact ⟨_, _, h, by decide, by decide, (delivery h .a).2.2 (by decide)⟩

end MessagePipe.Link
