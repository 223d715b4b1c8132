import MessagePipe.Proofs.Stream

/-!
# No run comes to a fault

The handshake has gaps (`State.on` is `none` where the program panics) and the endpoints have
assertions (§7 and §10.3 of the specification), but two ends that answer each other never reach
them, even where an owner stops receiving and commands are lost. Only an owner can break the terms
of use: by writing a delimiter, or by setting an endpoint up twice.

* `Pair.Sound.result_ok`: no reaction of a sound pair is a fault. Of the four faults an endpoint can
  raise by itself, a breach of the handshake is ruled out by the joint stances (`Proofs/Handshake`),
  an acknowledgment of an end that was taken down by them too, a fragment that does not say more
  frames follow by what is staged (`Proofs/Lane`: fragments have the *more* flag, and a delimiter is
  never one), and a delimiter that cannot be read by what a probe of the queue found.
* `Step.Allowed`: the steps of owners who keep to the terms. It is a condition on the step and the
  link it is done in, since a second sink is a breach only where there is a first one.
* `faultless`: no step of a run of allowed steps reports a fault.
* `faultless_after_loss`: a run in which a mailbox closes and commands are lost on the way.

A mailbox that closes is an owner that takes no further command, so every command sent to it stays
underway for good as far as the handshake is concerned; that is why nothing breaks.

Out of scope: overflow of the counters, which are numbers without a bound here.
-/

namespace MessagePipe

/-- No reaction is a fault, unless an owner writes a delimiter. -/
theorem Pair.Sound.result_ok {x : Pair} {s : Side} {st : Stimulus} {r : Reaction}
    {left : List Command} (h : Pair.Sound x) (hd : x.due s = st.taken ++ left)
    (hr : Reacts (x.pipe s) x.view st r)
    (hw : ∀ f, st = .call (.write f) → f.isDelimiter = false) : ∃ reply, r.result = .ok reply := by
  have hn := h.agrees.not_refuses hd
  cases hr with
  | writeDelimiter hf => cases hf.symm.trans (hw _ rfl)
  | rollbackFault hq hall =>
    obtain ⟨g, rfl, -, hflow⟩ := h.flows_of_outbound hq
    cases hall.symm.trans hflow.sane.all_hasMore
  | terminateFault hon ha hq hall =>
    obtain ⟨g, rfl, -, hflow⟩ := h.flows_of_outbound (Pipe.outbound_of_signalled hq)
    cases hall.symm.trans hflow.sane.all_hasMore
  | pipeTermFault hon => exact absurd hon hn
  | pipeTermAckTwice hi => exact absurd (.inl hi) hn
  | pipeTermAckFault hi hon => exact absurd (.inr hon) hn
  | _ => exact ⟨_, rfl⟩

namespace Link

/-- Does an owner keep to the terms of use? -/
def Step.Allowed (l : Link) : Step → Prop
  | .call _ (.write f) => f.isDelimiter = false
  | .setSink s _ => (l.side s).pipe.sink = none
  | .setIdentity s _ => (l.side s).pipe.identity = none
  | _ => True

/-- A step that keeps to the terms of use reports no fault, wherever a run came to. -/
theorem step_ok {config : Config} {a b : Plan} {may : Link → Step → Prop} {tr : Trace} {l : Link}
    (h : Run config a b may tr l) {step : Step} (hs : step.Allowed l) :
    ∃ reply, (l.step step).1.result = .ok reply := by
  obtain ⟨x, hf, hx⟩ := h.exists_sound
  cases step with
  | call s c =>
    obtain ⟨r, ht⟩ := l.took_call s c
    obtain ⟨left, hd, hr, -⟩ := hf.took ht (.inl ⟨c, rfl, rfl⟩)
    rw [ht.result]
    refine hx.result_ok hd hr fun f he => ?_
    cases he
    exact hs
  | deliver s =>
    cases hc : l.commands s with
    | nil =>
      rw [step_deliver_nil hc]
      exact ⟨.done, rfl⟩
    | cons c left =>
      obtain ⟨r, ht⟩ := took_deliver hc
      obtain ⟨left, hd, hr, -⟩ := hf.took ht (.inr ⟨rfl, c, rfl⟩)
      rw [ht.result]
      exact hx.result_ok hd hr (by rintro f ⟨⟩)
  | setSink s sink =>
    rw [step_setSink_of_none hs]
    exact ⟨.done, rfl⟩
  | setIdentity s identity =>
    rw [step_setIdentity_of_none hs]
    exact ⟨.done, rfl⟩
  | closeInbox s => exact ⟨.done, rfl⟩

/-- **No step of a run is a fault,** whatever is lost in mailboxes that close. -/
theorem faultless {config : Config} {a b : Plan} {tr : Trace} {l : Link}
    (h : Run config a b (fun l step => step.Allowed l) tr l) :
    ∀ e ∈ tr, ∃ reply, e.2.result = .ok reply := by
  induction h with
  | fresh h => exact fun e he => absurd he List.not_mem_nil
  | step h hs ih =>
    intro e he
    rcases List.mem_append.1 he with he | he
    · exact ih e he
    · rw [List.mem_singleton.1 he]
      exact step_ok h hs

/-- Both ends ask to terminate, and one owner stops receiving before it heard of the other. -/
theorem faultless_after_loss :
    ∃ (tr : Trace) (l : Link), Run {} { options := {}, sink := none } { options := {} }
        (fun l step => step.Allowed l) tr l ∧
      (l.side .a).pipe.state = .doubleTerminated ∧ (l.side .b).pipe.state = .terminated ∧
      ∀ e ∈ tr, ∃ reply, e.2.result = .ok reply := by
  have hc : create {} { options := {}, sink := none } { options := {} } = .ok _ := rfl
  have h : Run {} { options := {}, sink := none } { options := {} }
      (fun l step => step.Allowed l) _ _ := run_of_steps hc
    [.setSink .a .plain, .call .a (.write (.withMore (.ofBytes ⟨#[1]⟩))),
      .call .b (.terminate false), .call .a (.terminate true), .closeInbox .b, .deliver .a,
      .deliver .b, .call .a .rollback]
    ⟨rfl, rfl, trivial, trivial, trivial, trivial, trivial, trivial, trivial⟩
  exact ⟨_, _, h, by decide, by decide, faultless h⟩

end Link

end MessagePipe
