/-!
Types at the boundary.

A `BoundaryType` describes one argument or result of a native function: a scalar, a possibly
generic struct, a borrow of either kind, a run of elements, or an enum without fields. The
constructor `unknown` stands for a type outside this family; everything that has to encode or
render a type refuses it, with the fault `TypeFault.unknownType`.

Names are arbitrary texts here. Which of them may be spliced into a wrapper is decided by the
rules on names, not by the type.
-/

namespace AbiBridge

/-- A type that crosses the boundary. -/
inductive BoundaryType where
  /-- A scalar that crosses unchanged. -/
  | primitive (name : String)
  /-- A native struct with its generic arguments. -/
  | struct (name : String) (params : List BoundaryType)
  /-- An immutable borrow. -/
  | sharedRef (inner : BoundaryType)
  /-- A mutable borrow. -/
  | mutRef (inner : BoundaryType)
  /-- A contiguous run of elements. -/
  | sequence (elem : BoundaryType)
  /-- An enum without fields, its variants in declaration order. -/
  | enum (name : String) (variants : List String)
  /-- A type of no known family. -/
  | unknown
  deriving Inhabited, Repr

/-- Why a type cannot be encoded or rendered. -/
inductive TypeFault where
  /-- The type belongs to no known family. -/
  | unknownType
  /-- A run of runs, with the native text of the whole. -/
  | nestedSequence (native : String)
  /-- An enum in the position of a result. -/
  | enumReturned (name : String)
  deriving DecidableEq, Repr

namespace TypeFault

/-- The wording of a fault. -/
def message : TypeFault → String
  | unknownType => "Unknown boundary type: Unknown()"
  | nestedSequence native => s!"Sequence of sequences is not supported: {native}"
  | enumReturned name => s!"Enum '{name}' cannot be returned across the boundary"

end TypeFault

namespace BoundaryType

/-! ### Equality -/

mutual

/-- Equality of types is decidable, by comparison of the two trees. -/
def decEq : (a b : BoundaryType) → Decidable (a = b)
  | primitive a, primitive b =>
      if h : a = b then isTrue (by rw [h]) else isFalse fun e => h (primitive.inj e)
  | struct a ps, struct b qs =>
      if h : a = b then
        match decEqList ps qs with
        | isTrue h' => isTrue (by rw [h, h'])
        | isFalse h' => isFalse fun e => h' (struct.inj e).2
      else isFalse fun e => h (struct.inj e).1
  | sharedRef a, sharedRef b =>
      match decEq a b with
      | isTrue h => isTrue (by rw [h])
      | isFalse h => isFalse fun e => h (sharedRef.inj e)
  | mutRef a, mutRef b =>
      match decEq a b with
      | isTrue h => isTrue (by rw [h])
      | isFalse h => isFalse fun e => h (mutRef.inj e)
  | sequence a, sequence b =>
      match decEq a b with
      | isTrue h => isTrue (by rw [h])
      | isFalse h => isFalse fun e => h (sequence.inj e)
  | enum a vs, enum b ws =>
      if h : a = b ∧ vs = ws then isTrue (by rw [h.1, h.2])
      else isFalse fun e => h (enum.inj e)
  | unknown, unknown => isTrue rfl
  | primitive _, struct .. | primitive _, sharedRef _ | primitive _, mutRef _
  | primitive _, sequence _ | primitive _, enum .. | primitive _, unknown
  | struct .., primitive _ | struct .., sharedRef _ | struct .., mutRef _
  | struct .., sequence _ | struct .., enum .. | struct .., unknown
  | sharedRef _, primitive _ | sharedRef _, struct .. | sharedRef _, mutRef _
  | sharedRef _, sequence _ | sharedRef _, enum .. | sharedRef _, unknown
  | mutRef _, primitive _ | mutRef _, struct .. | mutRef _, sharedRef _
  | mutRef _, sequence _ | mutRef _, enum .. | mutRef _, unknown
  | sequence _, primitive _ | sequence _, struct .. | sequence _, sharedRef _
  | sequence _, mutRef _ | sequence _, enum .. | sequence _, unknown
  | enum .., primitive _ | enum .., struct .. | enum .., sharedRef _
  | enum .., mutRef _ | enum .., sequence _ | enum .., unknown
  | unknown, primitive _ | unknown, struct .. | unknown, sharedRef _
  | unknown, mutRef _ | unknown, sequence _ | unknown, enum .. =>
      isFalse (by simp)

/-- Equality of lists of types is decidable. -/
def decEqList : (as bs : List BoundaryType) → Decidable (as = bs)
  | [], [] => isTrue rfl
  | a :: as, b :: bs =>
      match decEq a b, decEqList as bs with
      | isTrue h, isTrue h' => isTrue (by rw [h, h'])
      | isFalse h, _ => isFalse fun e => h (List.cons.inj e).1
      | _, isFalse h => isFalse fun e => h (List.cons.inj e).2
  | [], _ :: _ | _ :: _, [] => isFalse (by simp)

end

instance : DecidableEq BoundaryType := decEq

/-! ### Scalars -/

/-- The scalars of the native language. -/
def primitiveNames : List String :=
  ["bool", "char", "f32", "f64", "i8", "i16", "i32", "i64", "i128", "isize",
    "u8", "u16", "u32", "u64", "u128", "usize"]

end BoundaryType

end AbiBridge
