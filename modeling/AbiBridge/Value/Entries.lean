import AbiBridge.Value.Basic

/-!
Tables in other guises.

Where a table counts for its entries alone, a list of pairs will do as well, and a pair is
anything with two parts: a list, a text of two characters, or the keys of a table.
`Value.asEntries` gives the entries or the first fault; the keys are looked at last.
-/

namespace AbiBridge

/-- Why a value gives no entries. -/
inductive ShapeFault where
  /-- A value of the given class has no fields. -/
  | noFields (cls : String)
  /-- A value of the given class has no parts. -/
  | noParts (cls : String)
  /-- An item has no parts. -/
  | itemWithoutParts (index : Nat)
  /-- An item has another number of parts than two. -/
  | itemOfLength (index length : Nat)
  /-- A key is a value of the given class, which has parts itself. -/
  | compoundKey (cls : String)
  /-- A key is no text. -/
  | keyNotText
  deriving DecidableEq, Repr

namespace ShapeFault

/-- The wording of a fault. -/
def message : ShapeFault → String
  | noFields cls => s!"'{cls}' object has no attribute 'get'"
  | noParts cls => s!"'{cls}' object is not iterable"
  | itemWithoutParts index =>
      s!"cannot convert dictionary update sequence element #{index} to a sequence"
  | itemOfLength index length =>
      s!"dictionary update sequence element #{index} has length {length}; 2 is required"
  | compoundKey cls => s!"unhashable type: '{cls}'"
  | keyNotText => "keywords must be strings"

end ShapeFault

namespace Value

/-- The parts of a value. -/
def parts? : Value → Option (List Value)
  | list items => some items
  | text s => some (s.toList.map fun c => text (String.singleton c))
  | table entries => some (entries.map fun e => text e.1)
  | _ => none

/-- A key with its value, from an item of a list. -/
def asPair (index : Nat) (item : Value) : Except ShapeFault (Value × Value) :=
  match item.parts? with
  | none => .error (.itemWithoutParts index)
  | some [key, value] =>
      if key.isCompound then .error (.compoundKey key.className) else .ok (key, value)
  | some parts => .error (.itemOfLength index parts.length)

/-- A pair whose key is a text. -/
def asEntry : Value × Value → Except ShapeFault (String × Value)
  | (text key, value) => .ok (key, value)
  | _ => .error .keyNotText

/-- The entries that a value gives. -/
def asEntries : Value → Except ShapeFault Table
  | table entries => .ok entries
  | list items => do
      let pairs ← items.zipIdx.mapM fun (item, index) => item.asPair index
      return Table.ofEntries (← pairs.mapM asEntry)
  | text s => if s.isEmpty then .ok [] else .error (.itemOfLength 0 1)
  | v => .error (.noParts v.className)

end Value

end AbiBridge
