import MessagePipe.Proofs.Footprint
import MessagePipe.Proofs.Room
import MessagePipe.Proofs.Writing

/-!
# Messages of several frames

Every frame of a message is tested against the watermark anew (`write` asks `check_write`, §4.2 of
the specification), but the messages ahead of the peer are counted up with the last one only. So an
end that said it may write takes a message whole, however many frames it has, and one that said it
may not takes none of it: the frames a writer has to take back in between are never there.

* `IsMessage`: the frames of one message: all but the last announce more, and none ends the stream.
* `Stages`: a side writes frames one after the other, and all are accepted: it counts so many
  messages more, the queue comes to hold so much, and nothing else comes of it. `Stages.cons` is its
  step.
* `stages_of_room`: where there is room for the last of the messages that a run of frames ends,
  every frame of it is accepted, by induction on the frames. `stages_message` is the case of one
  message.
* `vain_write`: an end that is marked, or out of operation, refuses whatever frame its owner writes,
  and hands it back.
* `writeMessage_eq`, `writeFrames_eq`: what the writing task does for a message, as these writes
  (§11.5).
* `Link.message_written_whole`: what follows the answer of an end that is asked whether it may
  write, whatever was done with it before, and what becomes of a message of the writing task.
* `Link.message_written_whole_at_watermark`: one below the watermark, with a fragment staged, and at
  the watermark.

Premise: nothing happens to the end between the answer and the last frame.

Out of scope: commands that are taken in between. With a report that was never sent, or a request to
terminate, the end may refuse the rest; the task then takes back what it wrote.
-/

namespace MessagePipe

open Function (update)

/-! ## Messages -/

/-- The frames of one message: all but the last announce more, and none ends the stream. -/
inductive IsMessage : List Frame → Prop where
  | last {f : Frame} (hf : f.isDelimiter = false) (hm : f.hasMore = false) : IsMessage [f]
  | more {f : Frame} {fs : List Frame} (hf : f.isDelimiter = false) (hm : f.hasMore = true)
      (h : IsMessage fs) : IsMessage (f :: fs)

/-- What a queue holds once the frames of a message are staged: with the fragments before them they
are ready. -/
def Segments.closedBy (s : Segments Frame) (fs : List Frame) : Segments Frame :=
  { s with ready := s.ready ++ s.fragments ++ fs, fragments := [] }

namespace IsMessage

variable {fs : List Frame}

theorem ne_nil (h : IsMessage fs) : fs ≠ [] := by
  cases h <;> exact List.cons_ne_nil _ _

theorem clean (h : IsMessage fs) : ∀ f ∈ fs, f.isDelimiter = false := by
  induction h with
  | last hf => exact List.forall_mem_singleton.2 hf
  | more hf _ _ ih => exact List.forall_mem_cons.2 ⟨hf, ih⟩

theorem messages_eq (h : IsMessage fs) : messages fs = 1 := by
  induction h with
  | last hf hm => rw [messages_singleton hf, hm]; rfl
  | more hf hm _ ih => rw [messages_cons, ih, messages_singleton hf, hm]; rfl

/-- No message ends before the last frame. -/
theorem messages_dropLast (h : IsMessage fs) : messages fs.dropLast = 0 := by
  induction h with
  | last => rfl
  | more hf hm h ih =>
    rw [List.dropLast_cons_of_ne_nil h.ne_nil, messages_cons, ih, messages_singleton hf, hm]
    rfl

/-- A message makes all frames that are staged ready. -/
theorem writeAll_eq (h : IsMessage fs) (s : Segments Frame) :
    s.writeAll Frame.hasMore fs = s.closedBy fs := by
  induction h generalizing s with
  | last hf hm => simp [Segments.writeAll, Segments.write, Segments.closedBy, hm]
  | more hf hm _ ih =>
    rw [Segments.writeAll, List.foldl_cons, ← Segments.writeAll, ih]
    simp [Segments.write, Segments.closedBy, hm]

end IsMessage

namespace Link

variable {l : Link} {s : Side} {q : QueueId} {fs : List Frame}

/-! ## Frames one after the other -/

/-- The steps in which side `s` writes frames, and does nothing else. -/
def writes (s : Side) (fs : List Frame) : List Step :=
  fs.map fun f => .call s (.write f)

theorem run_writes_cons (l : Link) (s : Side) (f : Frame) (fs : List Frame) :
    l.run (writes s (f :: fs)) = ((l.step (.call s (.write f))).1 ::
      ((l.step (.call s (.write f))).2.run (writes s fs)).1,
      ((l.step (.call s (.write f))).2.run (writes s fs)).2) :=
  rfl

/-- Side `s` writes frames one after the other, and all are accepted: it counts `n` messages more,
the queue `q` comes to hold `held`, and nothing else comes of it. -/
structure Stages (l : Link) (s : Side) (q : QueueId) (fs : List Frame) (n : Nat)
    (held : Segments Frame) : Prop where
  accepted : ∀ rep ∈ (l.run (writes s fs)).1, rep.result = .ok .accepted ∧
    Effect.commands rep.effects = [] ∧ Effect.events rep.effects = []
  pipe : ((l.run (writes s fs)).2.side s).pipe =
    { (l.side s).pipe with msgsWritten := (l.side s).pipe.msgsWritten + n }
  peer : ((l.run (writes s fs)).2.side s.other).pipe = (l.side s.other).pipe
  view : (l.run (writes s fs)).2.view = update l.view q held
  commands : ∀ s', (l.run (writes s fs)).2.commands s' = l.commands s'

theorem stages_nil (l : Link) (s : Side) (q : QueueId) : Stages l s q [] 0 (l.view q) where
  accepted := nofun
  pipe := rfl
  peer := rfl
  view := (Function.update_eq_self ..).symm
  commands _ := rfl

/-- A call with which nothing is sent leaves the commands underway as they are. -/
theorem Took.commands_eq {c : Call} {r : Reaction} {rep : Report} {l' : Link}
    (ht : Took l s (.call c) r rep l') (hp : r.posted = []) (s' : Side) :
    l'.commands s' = l.commands s' := by
  rcases s.eq_or_eq_other s' with rfl | rfl
  · exact ht.inbox.symm
  · rw [ht.outbox, hp, ite_self, List.append_nil]

/-- One frame is accepted, and the others after it. -/
theorem Stages.cons {f : Frame} (hf : f.isDelimiter = false)
    (ho : (l.side s).pipe.outActive = true) (hs : (l.side s).pipe.state = .active)
    (hn : (l.side s).pipe.isFull = false) (hq : (l.side s).pipe.outbound = some q)
    {n : Nat} {held : Segments Frame} (h : Stages (l.step (.call s (.write f))).2 s q fs n held) :
    Stages l s q (f :: fs) ((if f.hasMore then 0 else 1) + n) held := by
  obtain ⟨r, ht⟩ := l.took_call s (.write f)
  have hcommands := ht.commands_eq
  obtain rfl := ht.reacts.unique (.writeAccepted hf ho hs hn hq)
  constructor
  case accepted =>
    exact List.forall_mem_cons.2 ⟨⟨ht.result, ht.posted, ht.notified⟩, h.accepted⟩
  case pipe =>
    refine h.pipe.trans ?_
    rw [ht.own, Nat.add_assoc]
  case peer => exact h.peer.trans ht.peer
  case view =>
    refine h.view.trans ?_
    rw [ht.view, Function.update_idem]
  case commands => exact fun s' => (h.commands s').trans (hcommands rfl s')

/-- **Where there is room for the last of the messages that frames end, all of the frames are
accepted.** -/
theorem stages_of_room (hf : ∀ f ∈ fs, f.isDelimiter = false)
    (ho : (l.side s).pipe.outActive = true) (hs : (l.side s).pipe.state = .active)
    (hq : (l.side s).pipe.outbound = some q)
    (hroom : (l.side s).pipe.hwm = 0 ∨
      (l.side s).pipe.msgsWritten - (l.side s).pipe.peersMsgsRead + messages fs.dropLast <
        (l.side s).pipe.hwm) :
    Stages l s q fs (messages fs) ((l.view q).writeAll Frame.hasMore fs) := by
  induction fs generalizing l with
  | nil => exact stages_nil l s q
  | cons f fs ih =>
    obtain ⟨hf₀, hfs⟩ := List.forall_mem_cons.1 hf
    have hn : (l.side s).pipe.isFull = false := by
      rw [Pipe.isFull_eq_false_iff]
      omega
    obtain ⟨r, ht⟩ := l.took_call s (.write f)
    obtain rfl := ht.reacts.unique (.writeAccepted hf₀ ho hs hn hq)
    have hview : (l.step (.call s (.write f))).2.view q = (l.view q).write f f.hasMore :=
      (congrFun ht.view q).trans (Function.update_self ..)
    rw [messages_cons, messages_singleton hf₀, Segments.writeAll, List.foldl_cons, ← hview,
      ← Segments.writeAll]
    refine .cons hf₀ ho hs hn hq ?_
    rcases fs with _ | ⟨g, fs⟩
    · exact stages_nil _ s q
    · refine ih hfs ?_ ?_ ?_ ?_ <;> rw [ht.own]
      · exact ho
      · exact hs
      · exact hq
      · rw [List.dropLast_cons_of_ne_nil (List.cons_ne_nil g fs), messages_cons,
          messages_singleton hf₀] at hroom
        dsimp only
        omega

/-- Where there is room, a message is accepted as a whole. -/
theorem stages_message (h : IsMessage fs) (ho : (l.side s).pipe.outActive = true)
    (hs : (l.side s).pipe.state = .active) (hq : (l.side s).pipe.outbound = some q)
    (hn : (l.side s).pipe.isFull = false) :
    Stages l s q fs 1 ((l.view q).closedBy fs) := by
  rw [Pipe.isFull_eq_false_iff] at hn
  have := stages_of_room h.clean ho hs hq (by rw [h.messages_dropLast]; omega)
  rwa [h.messages_eq, h.writeAll_eq] at this

/-! ## The writing task -/

open Transfer (Job writeFrames writeMessage)

/-- The frames of a message of the writing task. -/
theorem isMessage_tail (j : Job) (n : Nat) : IsMessage (j.tail (n + 1)) := by
  induction n with
  | zero => exact .last (j.isDelimiter_frame _) (j.hasMore_frame _)
  | succ n ih => exact .more (j.isDelimiter_frame _) (j.hasMore_frame _) ih

/-- As long as all frames are accepted, none is taken back. -/
theorem writeFrames_eq (j : Job) (n : Nat)
    (h : ∀ rep ∈ (l.run (writes .a (j.tail n))).1, rep.result = .ok .accepted) :
    writeFrames j n l = (.ok true, (l.run (writes .a (j.tail n))).2) := by
  induction n generalizing l with
  | zero => rfl
  | succ n ih =>
    rw [Job.tail, run_writes_cons] at h ⊢
    obtain ⟨hfirst, hrest⟩ := List.forall_mem_cons.1 h
    rw [← ih hrest]
    rcases hstep : l.step (.call .a (.write (j.frame (0 < n)))) with ⟨⟨res, es⟩, l'⟩
    rw [hstep] at hfirst
    obtain rfl : res = .ok .accepted := hfirst
    rw [writeFrames,
      show l.call .a (.write ((Frame.ofBytes j.payload).setMore (0 < n))) = _ from hstep]

/-- A message of the writing task is written if the end says so, and not begun otherwise. -/
theorem writeMessage_eq (j : Job) {b : Bool}
    (h : (l.step (.call .a .checkWrite)).1.result = .ok (.flag b)) :
    writeMessage j l = if b then writeFrames j j.frames (l.step (.call .a .checkWrite)).2
      else (.ok false, (l.step (.call .a .checkWrite)).2) := by
  rcases hstep : l.step (.call .a .checkWrite) with ⟨⟨res, es⟩, l'⟩
  rw [hstep] at h
  obtain rfl : res = .ok (.flag b) := h
  rw [writeMessage, show l.call .a .checkWrite = _ from hstep]
  cases b <;> rfl

/-! ## All or nothing -/

/-- Side `s` refuses whatever frame its owner writes, and hands it back. -/
theorem vain_write {f : Frame} (hf : f.isDelimiter = false)
    (h : (l.side s).pipe.outActive = false ∨ (l.side s).pipe.state ≠ .active) :
    Vain l s (.occasion (.call (.write f))) (.ok (.refused f)) := by
  obtain ⟨r, ht⟩ := l.took_call s (.write f)
  obtain rfl := ht.reacts.unique (.writeRefused hf (h.imp_right .inl))
  exact ⟨ht.result, ht.posted, ht.notified, ht.own, ht.view⟩

/-- **A message is written whole, or not at all.** Whatever was done with an end of a fresh pair, it
answers whether it may write, which changes no queue and no count and sends nothing. If it may, then
every message is accepted frame by frame: all of its frames come behind what was staged, and one
message more is counted. If it may not, the first frame already is handed back, and nothing else
happens. So a message of the writing task is written with all of its frames, or none of them is
written: none has to be taken back. -/
theorem message_written_whole {config : Config} {a b : Plan} {l₀ : Link}
    (h : create config a b = .ok l₀) (s : Side) (us : List Use) :
    let l := l₀.useAll s us
    let l₁ := (l.step (.call s .checkWrite)).2
    let answer := (l.step (.call s .checkWrite)).1
    (Effect.commands answer.effects = [] ∧ l₁.view = l.view ∧
      (∃ o, (l₁.side s).pipe = { (l.side s).pipe with outActive := o }) ∧
      ∀ s', l₁.commands s' = l.commands s') ∧
    (answer.result = .ok (.flag true) ∧
        (∃ q, (l.side s).pipe.outbound = some q ∧ ∀ fs, IsMessage fs →
          Stages l₁ s q fs 1 ((l.view q).closedBy fs)) ∧
        (s = .a → ∀ j : Job, IsMessage (j.tail j.frames) ∧
          (j.tail j.frames).length = max j.fragments 1 ∧
          writeMessage j l = (.ok true, (l₁.run (writes .a (j.tail j.frames))).2)) ∨
      answer.result = .ok (.flag false) ∧
        (∀ f, f.isDelimiter = false →
          Vain l₁ s (.occasion (.call (.write f))) (.ok (.refused f))) ∧
        (s = .a → ∀ j : Job, writeMessage j l = (.ok false, l₁))) := by
  intro l l₁ answer
  have hhonest := (useAll_lasting (lasting_of_create h s) us).1.honest
  obtain ⟨r, ht⟩ := l.took_call s .checkWrite
  have hcommands := ht.commands_eq
  rcases ht.reacts.checkWrite_outcome with ⟨rfl, hs, ho, hn⟩ | ⟨o, rfl, hno⟩
  · obtain ⟨q, hq⟩ := hhonest.exists_outbound hs
    have hstages : ∀ fs, IsMessage fs → Stages l₁ s q fs 1 ((l.view q).closedBy fs) :=
      fun fs hm => by
        have hst : Stages l₁ s q fs 1 _ := stages_message hm (by rw [ht.own]; exact ho)
          (by rw [ht.own]; exact hs) (by rw [ht.own]; exact hq) (by rw [ht.own]; exact hn)
        rwa [ht.view] at hst
    refine ⟨⟨ht.posted, ht.view, ⟨_, ht.own⟩, hcommands rfl⟩,
      .inl ⟨ht.result, ⟨q, hq, hstages⟩, ?_⟩⟩
    rintro rfl j
    have hframes : j.frames = j.frames - 1 + 1 := (Nat.sub_add_cancel (Nat.le_max_right ..)).symm
    have hm : IsMessage (j.tail j.frames) := hframes ▸ isMessage_tail j (j.frames - 1)
    refine ⟨hm, j.length_tail _, (writeMessage_eq j ht.result).trans ?_⟩
    exact writeFrames_eq j _ fun rep hr => ((hstages _ hm).accepted rep hr).1
  · refine ⟨⟨ht.posted, ht.view, ⟨o, ht.own⟩, hcommands rfl⟩, .inr ⟨ht.result, ?_, ?_⟩⟩
    · intro f hf
      refine vain_write hf ?_
      rw [ht.own]
      exact (hno.imp_right And.left).symm
    · rintro rfl j
      exact writeMessage_eq j ht.result

/-- One below its watermark, and with a fragment staged, an end takes a message of two frames whole,
and the writing task one of three. At its watermark it hands the first frame back. -/
theorem message_written_whole_at_watermark :
    ∃ l : Link, create {} { options := {} } { options := { hwm := 2 } } = .ok l ∧
      let f : Frame := .ofBytes .empty
      let us : List Use := [.occasion (.call (.write f)), .occasion (.call (.write f.withMore))]
      let l₁ := ((l.useAll .a us).step (.call .a .checkWrite)).2
      let l₂ := ((l.useAll .a (us ++ [.occasion (.call (.write f))])).step (.call .a .checkWrite)).2
      Stages l₁ .a (.inbound Side.b.id 0) [f.withMore, f] 1
        { ready := [f, f.withMore, f.withMore, f] } ∧
      (writeMessage (.ofSizes 1 1 3) (l.useAll .a us)).1 = .ok true ∧
      Vain l₂ .a (.occasion (.call (.write f))) (.ok (.refused f)) := by
  have hcreate : create {} { options := {} } { options := { hwm := 2 } } = .ok _ := rfl
  refine ⟨_, hcreate, ?_⟩
  intro f us l₁ l₂
  have hbelow := (message_written_whole hcreate .a us).2
  have hat := (message_written_whole hcreate .a (us ++ [.occasion (.call (.write f))])).2
  obtain ⟨-, ⟨q, hq, hstages⟩, hwriting⟩ := hbelow.resolve_right fun hno =>
    absurd hno.1 (by decide)
  obtain ⟨-, hvain, -⟩ := hat.resolve_left fun hno => absurd hno.1 (by decide)
  obtain rfl : .inbound Side.b.id 0 = q := Option.some.inj ((by decide : some _ = _).trans hq)
  refine ⟨?_, congrArg Prod.fst (hwriting rfl _).2.2, hvain f (by decide)⟩
  refine (congrArg (Stages l₁ .a _ [f.withMore, f] 1) ?_).mp (hstages [f.withMore, f]
    (.more (by decide) (by decide) (.last (by decide) (by decide))))
  decide

end Link

end MessagePipe
