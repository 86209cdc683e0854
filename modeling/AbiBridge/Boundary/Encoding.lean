import AbiBridge.Boundary.Native

/-!
Binary encoding of a type.

At the boundary a scalar crosses as itself, every handle as one opaque pointer, an enum as the
ordinal of its variant and a run of elements as a pointer with a length beside it. `encodeArgument`
and `encodeResult` give the encoding in the two positions; they differ on runs, which are
returned as arrays of boxed handles, and on enums, which are never returned.
-/

namespace AbiBridge

/-- The pointer as which every struct and every borrow crosses. -/
def opaquePointer : String := "*mut ::std::os::raw::c_void"

/-- The scalar that carries lengths. -/
def lengthType : String := "usize"

/-- The scalar that carries the ordinal of an enum's variant. -/
def ordinalType : String := "usize"

/-- How a type crosses: the scalar in the signature, and whether a length goes with it. -/
structure Encoding where
  /-- The scalar as the signature shows it. -/
  scalar : String
  /-- Whether a length accompanies the scalar. -/
  hasLength : Bool := false
  deriving DecidableEq, Repr

namespace BoundaryType

/-- The encoding of an argument. -/
def encodeArgument : BoundaryType → Except TypeFault Encoding
  | primitive name => pure ⟨name, false⟩
  | struct _ _ | sharedRef _ | mutRef _ => pure ⟨opaquePointer, false⟩
  | sequence (sequence elem) => do throw (.nestedSequence (← native (sequence (sequence elem))))
  | sequence elem => do
      let inner ← encodeArgument elem
      return ⟨"*const " ++ inner.scalar, true⟩
  | enum _ _ => pure ⟨ordinalType, false⟩
  | unknown => throw .unknownType

/-- The encoding of a result. -/
def encodeResult : BoundaryType → Except TypeFault Encoding
  | primitive name => pure ⟨name, false⟩
  | struct _ _ | sharedRef _ | mutRef _ => pure ⟨opaquePointer, false⟩
  | sequence (sequence elem) => do throw (.nestedSequence (← native (sequence (sequence elem))))
  | sequence (enum name _) => throw (.enumReturned name)
  | sequence _ => pure ⟨"*mut " ++ opaquePointer, true⟩
  | enum name _ => throw (.enumReturned name)
  | unknown => throw .unknownType

end BoundaryType

end AbiBridge
