import MessagePipe.Proofs.Stream

/-!
# Asking to terminate again

To terminate is meant to be idempotent (§5 of the specification, and `terminate`: repeated calls are
ignored). A request to terminate that was made before is ignored, with one exception: an end that
waits for the delimiter of its peer, and is asked to wait for it, stays as it is. The table has no
*ignore* in that place, so the end closes its stream again, each time with another delimiter.

* `Reacts.asked`: what an end is like after it was asked once. It ignores a further request, or it
  insists (`Pipe.insists?`), and is then as it was but for its outbound queue.
* `Reacts.again`: what asking it again comes to, and `Link.asked_run` any number of times: no
  command, no event, no field but what the delimiters do to the queue.
* `Link.Run.delimiters`: how many delimiters an end can have staged, by what the trace says of the
  requests made while it waited.
* `Link.terminate_again`: all of this, wherever a run comes to, for any number of repetitions.
* `Link.terminate_writes_again`: the shortest run that shows it. One end terminates, the other takes
  the request and is asked twice to terminate with delay; it has two delimiters staged.

A delimiter beyond the first does no harm that an owner could see: the peer leaves off reading at
the first one, and the queue is given up before the second is looked at. It stays in the queue, and
is counted among what is dropped when the peer is taken down.

Out of scope: mailboxes need not be open here, and nothing is said of other calls in between.
-/

namespace MessagePipe

open Function (update)

/-! ## An end that was asked -/

/-- The queue that an end puts a delimiter into however often it is asked to terminate. -/
def Pipe.insists? (p : Pipe) (d : Bool) : Option QueueId :=
  if p.state = .pending ∧ d = true then p.outbound else none

theorem Pipe.insists?_eq_some {p : Pipe} {d : Bool} {q : QueueId} (h : p.insists? d = some q) :
    p.state = .pending ∧ d = true ∧ p.outbound = some q := by
  unfold insists? at h
  split at h
  · next hp => exact ⟨hp.1, hp.2, h⟩
  · cases h

/-- The queues with `n` more delimiters published in the given one, if one is given. -/
def View.delimited (v : View) (q : Option QueueId) (n : Nat) : View :=
  q.elim v fun q =>
    update v q { v q with visible := (v q).visible ++ List.replicate n .delimiter }

theorem View.delimited_zero (v : View) (q : Option QueueId) : v.delimited q 0 = v := by
  cases q with
  | none => rfl
  | some q => simp [delimited]

theorem View.delimited_succ (v : View) (q : Option QueueId) (n : Nat) :
    (v.delimited q 1).delimited q n = v.delimited q (n + 1) := by
  cases q with
  | none => rfl
  | some q => simp [delimited, List.replicate_succ]

/-- An end that was asked to terminate. Asked again, it ignores that, or has but a delimiter to
publish. -/
structure Pipe.Asked (p : Pipe) (v : View) (d : Bool) : Prop where
  delay : p.delay = d
  ignores : p.insists? d = none → p.state.on (.terminate d) = some (p.state, .ignore)
  insists : ∀ q, p.insists? d = some q → p.outActive = false ∧ (v q).ready = [] ∧
    (v q).fragments = [] ∧ (v q).idle = false

/-- A request that is acted upon is ignored from then on, unless the peer is waited for anyway. -/
theorem State.on_terminate_cases {s s' : State} {d : Bool} {a : Action}
    (h : s.on (.terminate d) = some (s', a)) :
    s'.on (.terminate d) = some (s', .ignore) ∧ ¬(s' = .pending ∧ d = true) ∨
      s = .pending ∧ s' = .pending ∧ d = true ∧ a = .none := by
  cases s <;> cases d <;> cases h <;> decide

section Reacts

variable {p : Pipe} {v : View} {d : Bool} {r : Reaction}

theorem Pipe.Asked.of_ignores (hd : p.delay = d)
    (hon : p.state.on (.terminate d) = some (p.state, .ignore))
    (hn : ¬(p.state = .pending ∧ d = true)) : p.Asked v d :=
  ⟨hd, fun _ => hon, fun q hq => by
    obtain ⟨hs, hd, -⟩ := Pipe.insists?_eq_some hq
    exact absurd ⟨hs, hd⟩ hn⟩

theorem Reacts.asked (h : Reacts p v (.call (.terminate d)) r) (hp : p.Honest)
    (hv : ∀ q, p.outbound = some q → (v q).fragments.all Frame.hasMore = true) :
    r.result = .ok .done ∧ r.pipe.Asked r.view d := by
  cases h with
  | lookIdle hc | lookDry hc | lookDelimiter hc => cases hc
  | terminateIgnored hon =>
    obtain rfl := Turn.on_terminate_ignore hon
    refine ⟨rfl, .of_ignores rfl hon ?_⟩
    rcases State.on_terminate_cases hon with ⟨-, hn⟩ | ⟨-, -, -, ha⟩
    · exact hn
    · cases ha
  | terminateReleased hon ha hq =>
    rcases State.on_terminate_cases hon with ⟨hi, hn⟩ | ⟨-, rfl, rfl, rfl⟩
    · exact ⟨rfl, .of_ignores rfl hi hn⟩
    · -- An end that waits for a delimiter has its outbound queue.
      have hh := hp.signalled hon
      rw [Pipe.Honest, hq] at hh
      cases hh
  | @terminate _ s a q hon ha hq hall =>
    rcases State.on_terminate_cases hon with ⟨hi, hn⟩ | ⟨-, rfl, rfl, rfl⟩
    · exact ⟨rfl, .of_ignores rfl hi hn⟩
    · refine ⟨rfl, rfl, fun hn => ?_, fun q' hq' => ?_⟩
      · cases hn.symm.trans hq
      · obtain rfl : q = q' := Option.some.inj (hq.symm.trans (Pipe.insists?_eq_some hq').2.2)
        dsimp only
        rw [Function.update_self, Segments.flush_ended]
        exact ⟨rfl, rfl, rfl, rfl⟩
  | terminateFault hon ha hq hall =>
    cases hall.symm.trans (hv _ (Pipe.outbound_of_signalled hq))

/-- Whether an end goes on closing its stream does not change as it is asked. -/
theorem Reacts.insists?_eq (h : Reacts p v (.call (.terminate d)) r) :
    r.pipe.insists? d = p.insists? d := by
  have hsignalled : ∀ {s : State} {a : Action}, p.state.on (.terminate d) = some (s, a) →
      a ≠ .ignore → ∀ {p' : Pipe}, p'.state = s → p'.outbound = (p.signalled s a).outbound →
        p'.insists? d = p.insists? d := fun hon ha p' hs ho => by
    unfold Pipe.insists?
    rcases State.on_terminate_cases hon with ⟨hi, hn⟩ | ⟨hs', rfl, rfl, rfl⟩
    · rw [hs, if_neg hn, if_neg]
      rintro ⟨hp, rfl⟩
      rw [hp] at hon
      cases hon
      exact hn ⟨rfl, rfl⟩
    · rw [hs, hs', ho]
      rfl
  cases h with
  | lookIdle hc | lookDry hc | lookDelimiter hc => cases hc
  | terminateIgnored => rfl
  | terminateReleased hon ha | terminate hon ha | terminateFault hon ha =>
    exact hsignalled hon ha rfl rfl

/-- Closing a stream again that was closed and published adds a delimiter, and wakes nobody. -/
theorem Segments.ended_again {s : Segments Frame} (hr : s.ready = []) (hf : s.fragments = [])
    (hi : s.idle = false) :
    s.ended.flush.2 = { s with visible := s.visible ++ [.delimiter] } ∧ s.ended.wake = [] := by
  rw [wake]
  simp [ended, write, flush, hr, hf, hi]

/-- **An end that was asked before answers, and is as it was,** but for a delimiter. -/
theorem Reacts.again (h : Reacts p v (.call (.terminate d)) r) (ha : p.Asked v d) :
    r = { pipe := p, view := v.delimited (p.insists? d) 1 } := by
  have hdelay : { p with delay := d } = p := by rw [← ha.delay]
  cases hq : p.insists? d with
  | none =>
    rw [h.unique (.terminateIgnored (ha.ignores hq)), hdelay]
    rfl
  | some q =>
    obtain ⟨hs, rfl, ho⟩ := Pipe.insists?_eq_some hq
    obtain ⟨hout, hr, hf, hi⟩ := ha.insists q hq
    have hon' : p.state.on (.terminate true) = some (.pending, .none) := by rw [hs]; rfl
    have hpipe : { p.signalled .pending .none with delay := true, outActive := false } = p := by
      rw [← hs, ← ha.delay, ← hout]
      rfl
    obtain ⟨hended, hwake⟩ := Segments.ended_again hr hf hi
    rw [h.unique (.terminate hon' nofun ho (by rw [hf]; rfl)), hpipe, hended, hwake,
      List.length_eq_zero_iff.2 hf]
    rfl

/-- It is then as it was in this respect, too. -/
theorem Pipe.Asked.delimited (ha : p.Asked v d) : p.Asked (v.delimited (p.insists? d) 1) d := by
  refine ⟨ha.delay, ha.ignores, fun q hq => ?_⟩
  obtain ⟨hout, hrest⟩ := ha.insists q hq
  refine ⟨hout, ?_⟩
  rw [hq, View.delimited, Option.elim_some, Function.update_self]
  exact hrest

end Reacts

/-! ## How many delimiters there are -/

namespace Segments

/-- How many delimiters a queue holds. -/
def delimiters (s : Segments Frame) : Nat :=
  s.all.countP Frame.isDelimiter

variable {s s' : Segments Frame}

theorem delimiters_le_of_sublist (hv : s'.visible.Sublist s.visible) (hr : s'.ready = s.ready)
    (hf : s'.fragments.Sublist s.fragments) : s'.delimiters ≤ s.delimiters := by
  unfold delimiters all
  rw [hr]
  exact ((hv.append (.refl _)).append hf).countP_le

theorem delimiters_write (s : Segments Frame) {f : Frame} (hf : f.isDelimiter = false)
    (incomplete : Bool) : (s.write f incomplete).delimiters = s.delimiters := by
  simp [delimiters, all_write, hf]

theorem delimiters_flush (s : Segments Frame) : s.flush.2.delimiters = s.delimiters := by
  rw [delimiters, all_flush, delimiters]

theorem delimiters_flush_ended (s : Segments Frame) :
    s.ended.flush.2.delimiters ≤ s.delimiters + 1 := by
  rw [flush_ended]
  simp only [delimiters, all, List.countP_append, List.countP_singleton, List.countP_nil]
  simp only [Frame.isDelimiter_delimiter, if_true]
  omega

end Segments

/-- How many delimiters a stimulus makes an end write. -/
def Stimulus.endings (p : Pipe) : Stimulus → Nat
  | .call (.terminate d) => if p.state.on (.terminate d) = some (p.state, .ignore) then 0 else 1
  | _ => 0

/-- Is an end asked to terminate, and to wait for its peer? -/
def Stimulus.waits : Stimulus → Nat
  | .call (.terminate true) => 1
  | _ => 0

/-- How many delimiters there can be in the queue of an end that was asked to wait `n` times. -/
def State.ceiling (n : Nat) : State → Nat
  | .active | .delimited => 0
  | .pending => n
  | _ => 1

theorem State.ceiling_on {s s' : State} {sg : Signal} {a : Action} (h : s.on sg = some (s', a))
    (hsg : ∀ d, sg ≠ .terminate d) (hr : s'.hasReleased = false) (n : Nat) :
    s.ceiling n ≤ s'.ceiling n := by
  cases move_of_on h with
  | delimit | wait => exact Nat.zero_le _
  | ask | askDelimited | askToWait | askNotToWait | askAfterAck | askAgain | askAfterBoth =>
    exact absurd rfl (hsg _)
  | _ => cases hr

theorem State.ceiling_on_terminate {s s' : State} {d : Bool} {a : Action}
    (h : s.on (.terminate d) = some (s', a)) (hr : s'.hasReleased = false) (n : Nat) :
    s.ceiling n + (if s.on (.terminate d) = some (s, .ignore) then 0 else 1) ≤
      s'.ceiling (n + if d then 1 else 0) := by
  cases move_of_on h with
  | ask | askDelimited | askToWait | askAgain => exact Nat.le_refl _
  | askNotToWait | askAfterAck | askAfterBoth => cases hr

theorem Stimulus.not_asked_of_look {c : Call} {e : Reply} (h : c.emptyReply = some e) (p : Pipe) :
    (Stimulus.call c).endings p = 0 ∧ (Stimulus.call c).waits = 0 := by
  cases c with
  | read | checkRead => exact ⟨rfl, rfl⟩
  | _ => cases h

section Reacts

variable {p : Pipe} {v : View} {st : Stimulus} {r : Reaction}

/-- A queue gets no delimiter but from the end that feeds it. -/
theorem Reacts.delimiters_le (h : Reacts p v st r) {q : QueueId}
    (hn : ∀ w retired old, st = .command (.hiccup w retired) → p.outbound = some old →
      q ≠ old ∧ q ≠ w ∧ q ≠ retired) :
    (r.view q).delimiters ≤
      (v q).delimiters + if p.outbound = some q then st.endings p else 0 := by
  have hupd : ∀ {q' : QueueId} {c : Segments Frame}, c.delimiters ≤ (v q').delimiters →
      (update v q' c q).delimiters ≤ (v q).delimiters := fun {q' c} hc => by
    by_cases he : q = q'
    · subst he
      rwa [Function.update_self]
    · rw [Function.update_of_ne he]
  suffices (r.view q).delimiters ≤ (v q).delimiters ∨ (r.view q).delimiters ≤
      (v q).delimiters + if p.outbound = some q then st.endings p else 0 from
    this.elim (fun h => Nat.le_add_right_of_le h) fun h => h
  cases h with
  | writeAccepted hf => exact .inl (hupd (Segments.delimiters_write _ hf _).le)
  | flush => exact .inl (hupd (Segments.delimiters_flush _).le)
  | rollback =>
    exact .inl (hupd (Segments.delimiters_le_of_sublist (.refl _) rfl (List.nil_sublist _)))
  | rollbackFault | terminateFault =>
    refine .inl (hupd (Segments.delimiters_le_of_sublist (.refl _) rfl ?_))
    exact (List.dropLast_sublist _).trans (List.rdropWhile_prefix _ _).sublist
  | lookDry => exact .inl (hupd (Nat.le_refl _))
  | lookDelimiter _ _ _ hv | readFrame _ _ hv =>
    refine .inl (hupd (Segments.delimiters_le_of_sublist ?_ rfl (.refl _)))
    rw [hv]
    exact List.sublist_cons_self ..
  | pipeTermAck =>
    exact .inl (hupd (Segments.delimiters_le_of_sublist (List.nil_sublist _) rfl (.refl _)))
  | hiccup => exact .inl (hupd (Nat.zero_le _))
  | @terminate d s a q' hon ha hq =>
    right
    by_cases he : q = q'
    · subst he
      have hne : p.state.on (.terminate d) ≠ some (p.state, .ignore) := fun hi => by
        cases hon.symm.trans hi
        exact ha rfl
      rw [if_pos (Pipe.outbound_of_signalled hq), Stimulus.endings, if_neg hne]
      dsimp only
      rw [Function.update_self]
      exact Segments.delimiters_flush_ended _
    · dsimp only
      rw [Function.update_of_ne he]
      exact Nat.le_add_right ..
  | @hiccupMoved w retired old _ ho =>
    obtain ⟨h1, h2, h3⟩ := hn w retired old rfl ho
    left
    dsimp only
    rw [Function.update_of_ne h2, v.moveStream_of_ne h1 h2 h3]
  | @hiccupUnflushed w retired old _ ho =>
    obtain ⟨h1, h2, h3⟩ := hn w retired old rfl ho
    left
    dsimp only
    rw [v.moveStream_of_ne h1 h2 h3]
  | _ => exact .inl (Nat.le_refl _)

/-- An end that keeps its outbound queue stays below the ceiling, and what it writes, too. -/
theorem Reacts.ceiling (h : Reacts p v st r) (hr : r.pipe.state.hasReleased = false) (n : Nat) :
    p.state.ceiling n + st.endings p ≤ r.pipe.state.ceiling (n + st.waits) := by
  have hterminate : ∀ {d : Bool} {s : State} {a : Action},
      p.state.on (.terminate d) = some (s, a) → s.hasReleased = false →
      p.state.ceiling n + (Stimulus.call (.terminate d)).endings p ≤
        s.ceiling (n + (Stimulus.call (.terminate d)).waits) := fun {d _ _} hon hr => by
    have hc := State.ceiling_on_terminate hon hr n
    cases d <;> exact hc
  cases h with
  | lookIdle hc | lookDry hc =>
    rw [(Stimulus.not_asked_of_look hc p).1, (Stimulus.not_asked_of_look hc p).2]
    exact Nat.le_refl _
  | lookDelimiter hc _ _ _ _ hon =>
    rw [(Stimulus.not_asked_of_look hc p).1, (Stimulus.not_asked_of_look hc p).2]
    exact State.ceiling_on hon (by simp) hr n
  | terminateIgnored hon =>
    have hs := Turn.on_terminate_ignore hon
    subst hs
    exact hterminate hon hr
  | terminateReleased hon | terminate hon | terminateFault hon => exact hterminate hon hr
  | pipeTerm hon => exact State.ceiling_on hon (by simp) hr n
  | pipeTermAck _ hon => exact State.ceiling_on hon (by simp) hr n
  | _ => exact Nat.le_refl _

end Reacts

namespace Pair

variable {x : Pair} {s : Side} {st : Stimulus} {r : Reaction} {left : List Command}

/-- What an end adds to the delimiters in the queue it feeds. -/
theorem Sound.delimiters_self (h : Sound x) (hd : x.due s = st.taken ++ left)
    (hr : Reacts (x.pipe s) x.view st r) {q' : QueueId} (hq : r.pipe.outbound = some q') :
    ∃ q, (x.pipe s).outbound = some q ∧
      (r.view q').delimiters ≤ (x.view q).delimiters + st.endings (x.pipe s) := by
  rcases hr.outbound_cases with ho | ⟨ho, ht⟩ | ⟨w, retired, old, rfl, hold, ho⟩
  · cases ho.symm.trans hq
  · have hle := hr.delimiters_le (q := q') fun w retired old he => by
      rw [he] at ht
      cases ht
    rw [← ho, hq, if_pos rfl] at hle
    exact ⟨q', ho ▸ hq, hle⟩
  · -- A queue that takes a stream over has its delimiters.
    obtain rfl := Option.some.inj (ho.symm.trans hq)
    refine ⟨old, hold, ?_⟩
    have hm := h.moved_of_notice hd hold
    cases hr with
    | hiccupReleased hn => cases hn.symm.trans hold
    | hiccupMoved _ hold' =>
      obtain rfl := Option.some.inj (hold'.symm.trans hold)
      dsimp only
      rw [Function.update_self, Segments.delimiters_flush, hm]
      exact Nat.le_refl _
    | hiccupUnflushed _ hold' =>
      obtain rfl := Option.some.inj (hold'.symm.trans hold)
      dsimp only
      rw [hm]
      exact Nat.le_refl _

/-- The other end adds none. -/
theorem Sound.delimiters_other (h : Sound x) (hd : x.due s = st.taken ++ left)
    (hr : Reacts (x.pipe s) x.view st r) {q : QueueId}
    (hq : (x.pipe s.other).outbound = some q) : (r.view q).delimiters ≤ (x.view q).delimiters := by
  obtain ⟨g, rfl, -⟩ := h.flows_of_outbound hq
  rw [Side.other_other] at hq ⊢
  have hle := hr.delimiters_le (q := .inbound s.id g) fun w retired old he ho => by
    subst he
    exact h.inbound_ne_of_notice hd ho g
  rwa [if_neg fun ho => h.inbound_ne_outbound ho g rfl, Nat.add_zero] at hle

end Pair

namespace Link

variable {config : Config} {a b : Plan} {may : Link → Step → Prop} {tr : Trace} {l l' : Link}
  {s : Side} {d : Bool}

/-! ## Asking any number of times -/

/-- The pair `l'` has the ends of `l`, and nothing arrived anywhere since. -/
structure Unmoved (l l' : Link) : Prop where
  pipe : ∀ s, (l'.side s).pipe = (l.side s).pipe
  commands : ∀ s, l'.commands s = l.commands s
  events : ∀ s, (l'.side s).events = (l.side s).events

theorem Unmoved.refl (l : Link) : Unmoved l l :=
  ⟨fun _ => rfl, fun _ => rfl, fun _ => rfl⟩

theorem Unmoved.trans {l'' : Link} (h : Unmoved l l') (h' : Unmoved l' l'') : Unmoved l l'' :=
  ⟨fun s => (h'.pipe s).trans (h.pipe s), fun s => (h'.commands s).trans (h.commands s),
    fun s => (h'.events s).trans (h.events s)⟩

/-- What a step that is answered and does nothing else reports. -/
structure Report.Quiet (rep : Report) : Prop where
  result : rep.result = .ok .done
  posted : Effect.commands rep.effects = []
  notified : Effect.events rep.effects = []

/-- A reaction that changes the queues alone. -/
theorem Took.unmoved {c : Call} {v : View} {rep : Report}
    (ht : Took l s (.call c) { pipe := (l.side s).pipe, view := v } rep l') :
    Unmoved l l' ∧ rep.Quiet := by
  refine ⟨⟨fun s' => ?_, fun s' => ?_, fun s' => ?_⟩, ht.result, ht.posted, ht.notified⟩ <;>
    rcases s.eq_or_eq_other s' with rfl | rfl
  · exact ht.own
  · exact ht.peer
  · exact ht.inbox.symm
  · rw [ht.outbox, ite_self, List.append_nil]
  · rw [ht.events]
    exact List.append_nil _
  · exact ht.unheard

/-- **Asked once more, an end answers, and all that changes is a delimiter.** -/
theorem asked_step (ha : (l.side s).pipe.Asked l.view d) :
    Unmoved l (l.step (.call s (.terminate d))).2 ∧
      (l.step (.call s (.terminate d))).1.Quiet ∧
      (l.step (.call s (.terminate d))).2.view =
        l.view.delimited ((l.side s).pipe.insists? d) 1 := by
  obtain ⟨r, ht⟩ := l.took_call s (.terminate d)
  obtain rfl := ht.reacts.again ha
  obtain ⟨hu, hq⟩ := ht.unmoved
  exact ⟨hu, hq, ht.view⟩

/-- **So it is any number of times.** -/
theorem asked_run (ha : (l.side s).pipe.Asked l.view d) (n : Nat) :
    Unmoved l (l.run (List.replicate n (.call s (.terminate d)))).2 ∧
      (∀ rep ∈ (l.run (List.replicate n (.call s (.terminate d)))).1, rep.Quiet) ∧
      (l.run (List.replicate n (.call s (.terminate d)))).2.view =
        l.view.delimited ((l.side s).pipe.insists? d) n := by
  induction n generalizing l with
  | zero => exact ⟨.refl l, nofun, (View.delimited_zero ..).symm⟩
  | succ n ih =>
    obtain ⟨hu, hq, hv⟩ := asked_step ha
    obtain ⟨hu', hq', hv'⟩ := ih (by rw [hu.pipe, hv]; exact ha.delimited)
    rw [hu.pipe, hv, View.delimited_succ] at hv'
    rw [List.replicate_succ, run_cons]
    refine ⟨hu.trans hu', fun rep hm => ?_, hv'⟩
    rcases List.mem_cons.1 hm with rfl | hm
    · exact hq
    · exact hq' rep hm

/-- An end that was asked is so wherever a run came to, and was answered. -/
theorem Run.asked (h : Run config a b may tr l) (s : Side) (d : Bool) :
    (l.step (.call s (.terminate d))).1.result = .ok .done ∧
      ((l.step (.call s (.terminate d))).2.side s).pipe.Asked
        (l.step (.call s (.terminate d))).2.view d := by
  obtain ⟨x, hf, hx⟩ := h.exists_sound
  obtain ⟨r, ht⟩ := l.took_call s (.terminate d)
  have hp : (l.side s).pipe.Honest := hf.pipe s ▸ hx.agrees.honest s
  obtain ⟨hres, ha⟩ := ht.reacts.asked hp fun q hq => by
    rw [← hf.pipe] at hq
    obtain ⟨g, rfl, -, hflow⟩ := hx.flows_of_outbound hq
    rw [← hf.view]
    exact hflow.sane.all_hasMore
  rw [ht.result, ht.own, ht.view]
  exact ⟨hres, ha⟩

/-- How often the owner of side `s` asked to terminate, and to wait for the peer. -/
def Trace.waits (s : Side) (tr : Trace) : Nat :=
  tr.countP fun e => e.1 = .call s (.terminate true)

theorem Trace.waits_concat (s : Side) (tr : Trace) (e : Step × Report) :
    waits s (tr ++ [e]) = waits s tr + if e.1 = .call s (.terminate true) then 1 else 0 := by
  simp [waits, List.countP_append, List.countP_singleton]

theorem waits_of_stimulus {st : Stimulus} {step : Step}
    (hst : (∃ c, step = .call s c ∧ st = .call c) ∨ step = .deliver s ∧ ∃ c, st = .command c) :
    (if step = .call s (.terminate true) then 1 else 0) = st.waits := by
  rcases hst with ⟨c, rfl, rfl⟩ | ⟨rfl, c, rfl⟩
  · cases c with
    | terminate d => cases d <;> simp [Stimulus.waits]
    | _ => simp [Stimulus.waits]
  · simp [Stimulus.waits]

/-- **How many delimiters there can be.** None before an end is asked to terminate; one after it
was, but for an end that waits for its peer anyway, where it is one each time. -/
theorem Run.delimiters (h : Run config a b may tr l) (s : Side) {q : QueueId}
    (hq : (l.side s).pipe.outbound = some q) :
    (l.view q).delimiters ≤ (l.side s).pipe.state.ceiling (tr.waits s) := by
  induction h generalizing q with
  | fresh h =>
    obtain ⟨log, rfl⟩ := eq_of_create h
    exact Nat.zero_le _
  | @step tr l step h hs ih =>
    obtain ⟨x, hf, hx⟩ := h.exists_sound
    rw [Trace.waits_concat]
    rcases l.step_cases step with ⟨s', st, r, hst, ht⟩ | ⟨hn, hk, -⟩
    · obtain ⟨left, hd, hr, -⟩ := hf.took ht hst
      rcases s'.eq_or_eq_other s with rfl | rfl
      · rw [waits_of_stimulus hst, ht.own, ht.view]
        rw [ht.own] at hq
        obtain ⟨q₀, hq₀, hle⟩ := hx.delimiters_self hd hr hq
        have hreleased : r.pipe.state.hasReleased = false := by
          rw [← hr.honest (hx.agrees.honest s), hq]
          rfl
        have hceiling := hr.ceiling hreleased (tr.waits s)
        rw [hf.pipe] at hq₀ hceiling hle
        rw [hf.view] at hle
        exact hle.trans ((Nat.add_le_add_right (ih hq₀) _).trans hceiling)
      · have hne : step ≠ .call s'.other (.terminate true) := fun he => by
          have hside := side_of_stimulus hst
          rw [he] at hside
          exact s'.other_ne hside
        rw [ht.peer] at hq
        rw [if_neg hne, Nat.add_zero, ht.peer, ht.view]
        refine (hx.delimiters_other hd hr (hf.pipe _ ▸ hq)).trans ?_
        rw [hf.view]
        exact ih hq
    · have hne : step ≠ .call s (.terminate true) := hn _ _
      obtain ⟨k, i, hp, -⟩ := hk.pipe s
      rw [hp] at hq
      rw [if_neg hne, Nat.add_zero, hk.view, hp]
      exact ih hq

/-- **Asking to terminate again changes nothing, except while the peer's delimiter is waited for.**
Wherever a run comes to, an end that is asked to terminate once and then `n` times more has the
state, and both mailboxes and owners have the commands and events, that they have after the first
time; so have the queues, unless the end waits for the delimiter of its peer and is asked to wait:
then each time leaves another delimiter in the queue it feeds. An end that waits never has more of
them in that queue than there were such requests, and any other end never more than one. -/
theorem terminate_again (h : Run config a b may tr l) (s : Side) (d : Bool) (n : Nat) :
    let once := (l.step (.call s (.terminate d))).2
    let again := once.run (List.replicate n (.call s (.terminate d)))
    (l.step (.call s (.terminate d))).1.result = .ok .done ∧
    (∀ rep ∈ again.1, rep.Quiet) ∧ Unmoved once again.2 ∧
    again.2.view = once.view.delimited ((l.side s).pipe.insists? d) n ∧
    ∀ q, (l.side s).pipe.outbound = some q →
      (l.view q).delimiters ≤ (l.side s).pipe.state.ceiling (tr.waits s) := by
  intro once again
  obtain ⟨hres, ha⟩ := h.asked s d
  obtain ⟨hu, hquiet, hview⟩ := asked_run ha n
  obtain ⟨r, ht⟩ := l.took_call s (.terminate d)
  rw [ht.own, ht.reacts.insists?_eq] at hview
  exact ⟨hres, hquiet, hu, hview, fun q hq => h.delimiters s hq⟩

/-- One end asks to terminate, and the other, which took notice of that but has not read the
delimiter, is asked to terminate three times: each time leaves a delimiter. -/
theorem terminate_again_while_waiting :
    ∃ (tr : Trace) (l : Link),
      OpenRun {} { options := {} } { options := {} } tr l ∧
      (l.side .b).pipe.state = .pending ∧ l.view (.inbound ⟨1⟩ 0) = {} ∧
      (((l.step (.call .b (.terminate true))).2.run
        (List.replicate 2 (.call .b (.terminate true)))).2.view (.inbound ⟨1⟩ 0)).visible =
          [.delimiter, .delimiter, .delimiter] := by
  have h : OpenRun {} { options := {} } { options := {} } _ _ := run_of_steps rfl
    [.call .a (.terminate true), .deliver .b] ⟨rfl, rfl, trivial⟩
  obtain ⟨-, -, -, hview, -⟩ := terminate_again h .b true 2
  refine ⟨_, _, h, by decide, by decide, ?_⟩
  rw [hview]
  decide

/-- **To terminate is not idempotent:** the delimiter is written again. -/
theorem terminate_writes_again :
    ¬ ∀ (config : Config) (a b : Plan) (tr : Trace) (l : Link) (s : Side) (d : Bool),
      OpenRun config a b tr l →
      ((l.step (.call s (.terminate d))).2.step (.call s (.terminate d))).2.view =
        (l.step (.call s (.terminate d))).2.view := by
  intro hall
  have h : OpenRun {} { options := {} } { options := {} } _ _ := run_of_steps rfl
    [.call .a (.terminate true), .deliver .b] ⟨rfl, rfl, trivial⟩
  have hv := congrFun (hall _ _ _ _ _ .b true h) (.inbound ⟨1⟩ 0)
  exact absurd hv (by decide)

end Link

end MessagePipe
