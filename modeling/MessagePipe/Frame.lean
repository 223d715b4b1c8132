/-!
# Frames: the unit a pipe carries

The frame (`Msg`) with its flags (`MsgFlags`), §11.1 of the specification. A message is a run of
frames, every one but the last carrying the *more* flag, and flow control counts messages, not
frames. One special frame, the delimiter, is written by a terminating pipe behind all that was
written before, and consumed by the reading pipe; owners never see it, and an owner who writes one
raises a fault (`Fault.delimiterWritten`).

The payload is opaque: no operation looks at its bytes, only `Frame.size` counts them, for the
accounts of the two tasks. Flags are eight bits of which one has a meaning. `Flags.set` and
`Flags.clear` work on all of them, so that flags made from raw bits behave as they should
(`hasMore_setMore`: setting the *more* flag has just the effect it says, whatever the other bits
are). A delimiter is told by its kind and not by its flags (`hasMore_delimiter`).

Out of scope: copying and borrowing of payloads, since a payload is a value.
-/

namespace MessagePipe

/-- Text of a list of bytes, in decimal. -/
def describeBytes (bytes : ByteArray) : String :=
  "[" ++ ", ".intercalate (bytes.toList.map fun b => toString b.toNat) ++ "]"

/-! ## Flags -/

/-- A set of flags, one bit each. -/
structure Flags where
  /-- The flags as a number. -/
  bits : UInt8
deriving DecidableEq, Repr

namespace Flags

/-- No flag. -/
def none : Flags := ⟨0⟩

/-- More frames of the same message follow. -/
def more : Flags := ⟨1⟩

instance : Inhabited Flags := ⟨none⟩

/-- Is every flag of `g` set? -/
def contains (f g : Flags) : Bool :=
  f.bits &&& g.bits == g.bits

/-- Sets the flags of `g`. -/
def set (f g : Flags) : Flags :=
  ⟨f.bits ||| g.bits⟩

/-- Clears the flags of `g`. -/
def clear (f g : Flags) : Flags :=
  ⟨f.bits &&& ~~~g.bits⟩

/-- The flags as text. -/
def describe (f : Flags) : String :=
  "MsgFlags(" ++ toString f.bits.toNat ++ ")"

end Flags

/-! ## Frames -/

/-- What a frame is for. -/
inductive Frame.Kind where
  /-- A part of a message. -/
  | data
  /-- The end of a stream. -/
  | delimiter
deriving DecidableEq, Repr, Inhabited

/-- The kind as one word. -/
def Frame.Kind.name : Frame.Kind → String
  | .data => "Data"
  | .delimiter => "Delimiter"

/-- A payload with its flags. -/
structure Frame where
  /-- The bytes carried. -/
  payload : ByteArray
  /-- The flags, of which only *more* is ever set by a frame's own operations. -/
  flags : Flags := Flags.none
  /-- Whether the frame is data or ends the stream. -/
  kind : Frame.Kind := .data
deriving Inhabited

namespace Frame

/-- Frames are equal if their payloads, flags and kinds are. -/
instance : DecidableEq Frame := fun f g =>
  haveI : Decidable (f.payload = g.payload) := ByteArray.decEq f.payload g.payload
  decidable_of_iff (f.payload = g.payload ∧ f.flags = g.flags ∧ f.kind = g.kind)
    (by cases f; cases g; simp)

/-- A frame that is a whole message. -/
def ofBytes (payload : ByteArray) : Frame := { payload }

/-- The end of a stream. -/
def delimiter : Frame := { payload := .empty, kind := .delimiter }

/-- Sets or clears the *more* flag. -/
def setMore (f : Frame) (more : Bool) : Frame :=
  { f with flags := if more then f.flags.set .more else f.flags.clear .more }

/-- The frame, followed by more frames of the same message. -/
def withMore (f : Frame) : Frame :=
  f.setMore true

/-- Do more frames of the same message follow? -/
def hasMore (f : Frame) : Bool :=
  f.flags.contains .more

/-- Does the frame end the stream? -/
def isDelimiter (f : Frame) : Bool :=
  f.kind == .delimiter

/-- The number of bytes carried. -/
def size (f : Frame) : Nat :=
  f.payload.size

/-- Are no bytes carried? -/
def isEmpty (f : Frame) : Bool :=
  f.payload.isEmpty

/-- The frame as text. -/
def describe (f : Frame) : String :=
  "Msg \x7b data: " ++ describeBytes f.payload ++ ", flags: " ++ f.flags.describe ++ ", kind: "
    ++ f.kind.name ++ " \x7d"

theorem hasMore_setMore (f : Frame) (more : Bool) : (f.setMore more).hasMore = more := by
  obtain ⟨_, ⟨bits⟩, _⟩ := f
  cases more
  · simp only [setMore, hasMore, Flags.clear, Flags.contains, Flags.more, Bool.false_eq_true,
      if_false]
    simp only [beq_eq_false_iff_ne, ne_eq]
    rw [UInt8.and_assoc]
    simp
  · simp only [setMore, hasMore, Flags.set, Flags.contains, Flags.more, if_true]
    rw [beq_iff_eq]
    exact UInt8.toBitVec_inj.1 (by ext i; simp; exact fun h => .inr h)

@[simp] theorem hasMore_delimiter : delimiter.hasMore = false := by decide

@[simp] theorem isDelimiter_delimiter : delimiter.isDelimiter = true := by decide

end Frame

end MessagePipe
