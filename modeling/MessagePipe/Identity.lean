import MessagePipe.Error

/-!
# Identities

An identity is an opaque run of at most `maxIdentitySize` bytes that names the writing side of a
pipe (§11.2 of the specification). The bound is part of the type, where the program has a vector of
fixed capacity, so an identity that is there needs no further check; `Identity.ofBytes`
(`from_slice`) is the one way to make one of arbitrary bytes, and refuses those that do not fit with
`Error.identityTooLong`.

A pipe keeps the identity attached to it and shows it on request; no operation of the pipe depends
on it. It is attached at most once (`Pipe.setIdentity`): a second time is a breach of the terms of
use, `Fault.identityTaken`.
-/

namespace MessagePipe

/-- The most bytes an identity has. -/
def maxIdentitySize : Nat := 255

/-- A run of bytes short enough to be an identity. -/
structure Identity where
  /-- The bytes. -/
  bytes : ByteArray
  /-- There are not too many. -/
  size_le : bytes.size ≤ maxIdentitySize

namespace Identity

/-- Identities are equal if their bytes are. -/
instance : DecidableEq Identity := fun i j =>
  haveI : Decidable (i.bytes = j.bytes) := ByteArray.decEq i.bytes j.bytes
  decidable_of_iff (i.bytes = j.bytes) (by cases i; cases j; simp)

/-- The identity without bytes. -/
def empty : Identity := ⟨.empty, Nat.zero_le _⟩

instance : Inhabited Identity := ⟨empty⟩

/-- The identity with the given bytes, unless they are too many. -/
def ofBytes (bytes : ByteArray) : Except Error Identity :=
  if h : bytes.size ≤ maxIdentitySize then .ok ⟨bytes, h⟩ else .error .identityTooLong

/-- Has the identity no bytes? -/
def isEmpty (i : Identity) : Bool :=
  i.bytes.isEmpty

end Identity

end MessagePipe
