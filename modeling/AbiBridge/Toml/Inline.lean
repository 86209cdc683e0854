import AbiBridge.Text.Hex
import AbiBridge.Value.Basic

/-!
Values on one line of a document.

Truth values, numbers, texts and lists of them have an inline form. A text stands between double
quotes; the quote and the backslash are escaped by a backslash, five control characters by a
letter, and everything else outside of printable ASCII by its sixteen-bit units in hexadecimal.
A table, a date and the absent value have no inline form, and neither has an integer that is too
long to be written; `inline` tells of the first of those it meets. Lists may be nested to any depth:
the limit of digits belongs to the integers, a limit of nesting would be that of a stack and is left
out.
-/

namespace AbiBridge

open Text

namespace Toml

/-- The sixteen-bit units of a character. -/
def units (c : Char) : List Nat :=
  let n := c.toNat
  if n < 0x10000 then [n]
  else [0xD800 + (n - 0x10000) / 0x400, 0xDC00 + (n - 0x10000) % 0x400]

/-- One character between the quotes. -/
def inlineChar (c : Char) : List Char :=
  if c == doubleQuote || c == backslash then [backslash, c]
  else if c == '\n' then [backslash, 'n']
  else if c == '\r' then [backslash, 'r']
  else if c == '\t' then [backslash, 't']
  else if c.toNat = 0x08 then [backslash, 'b']
  else if c.toNat = 0x0C then [backslash, 'f']
  else if 0x20 ≤ c.toNat && c.toNat ≤ 0x7E then [c]
  else (units c).flatMap fun u => backslash :: 'u' :: hexDigits 4 u

/-- A text between quotes. -/
def inlineText (s : String) : String :=
  String.ofList (doubleQuote :: s.toList.flatMap inlineChar ++ [doubleQuote])

/-- Why a value has no inline form. -/
inductive InlineFault where
  /-- A part of it has none; the description of the part. -/
  | noForm (description : String)
  /-- An integer cannot be written, in the form or in the description of a part without one. -/
  | integer (fault : IntegerFault)
  deriving DecidableEq, Repr

namespace InlineFault

/-- The fault of a part that has no inline form. -/
def ofPart (part : Value) : InlineFault :=
  match part.describe with
  | .ok description => noForm description
  | .error fault => integer fault

/-- The wording of a fault. -/
def message : InlineFault → String
  | noForm description => s!"Cannot render {description} as a Cargo.toml value"
  | integer fault => fault.message

end InlineFault

mutual

/-- A value on one line. -/
def inline : Value → Except InlineFault String
  | .boolean b => pure (if b then "true" else "false")
  | .integer n => (integerText n).mapError .integer
  | .number x => pure x.text
  | .text s => pure (inlineText s)
  | .list items => do return "[" ++ ", ".intercalate (← inlineAll items) ++ "]"
  | .null => throw (.ofPart .null)
  | .moment m => throw (.ofPart (.moment m))
  | .table entries => throw (.ofPart (.table entries))

/-- The values of a list, each on one line. -/
def inlineAll : List Value → Except InlineFault (List String)
  | [] => pure []
  | v :: vs => do
      let text ← inline v
      let texts ← inlineAll vs
      return text :: texts

end

end Toml

end AbiBridge
