import AbiBridge.Assoc
import AbiBridge.Number.Integer
import AbiBridge.Number.Text
import AbiBridge.Text.Quoted
import AbiBridge.Value.Moment

/-!
Data of manifests, settings and crate options.

A `Value` is what a document can hold: truth values, integers of any size, floating-point numbers,
texts, dates and times, lists, and tables in the order of their keys. `null` is the absence of a
value, which programs can pass and documents cannot write.
-/

namespace AbiBridge

open Text

/-- A piece of data. -/
inductive Value where
  | null
  | boolean (b : Bool)
  | integer (n : Int)
  | number (x : Binary64)
  | text (s : String)
  | moment (m : Moment)
  | list (items : List Value)
  | table (entries : List (String × Value))
  deriving Inhabited

/-- The entries of a table. -/
abbrev Table := List (String × Value)

namespace Table

/-- The table with a value under a key: in the stead of the one that was there, or at the end. -/
def put (t : Table) (key : String) (value : Value) : Table := Assoc.put key value t

/-- The table of the given entries, the last one of each key counting. -/
def ofEntries (entries : List (String × Value)) : Table :=
  entries.foldl (fun t e => t.put e.1 e.2) []

end Table

namespace Value

mutual

/-- The description of a value. There is none if an integer in it is too long to be written. -/
def describe : Value → Except IntegerFault String
  | null => pure "None"
  | boolean b => pure (if b then "True" else "False")
  | integer n => integerText n
  | number x => pure x.text
  | text s => pure (quoted s)
  | moment m => pure m.describe
  | list items => do
      let texts ← describeAll items
      return String.join ["[", ", ".intercalate texts, "]"]
  | table entries => do
      let texts ← describeEntries entries
      return String.join ["\x7b", ", ".intercalate texts, "\x7d"]

/-- The descriptions of a list of values. -/
def describeAll : List Value → Except IntegerFault (List String)
  | [] => pure []
  | v :: vs => do
      let text ← describe v
      let texts ← describeAll vs
      return text :: texts

/-- The descriptions of the entries of a table. -/
def describeEntries : List (String × Value) → Except IntegerFault (List String)
  | [] => pure []
  | (key, v) :: es => do
      let text ← describe v
      let texts ← describeEntries es
      return String.join [quoted key, ": ", text] :: texts

end

/-- Whether a value is a list or a table. -/
def isCompound : Value → Bool
  | list _ | table _ => true
  | _ => false

/-- The word for the class of a value in messages. -/
def className : Value → String
  | null => "NoneType"
  | boolean _ => "bool"
  | integer _ => "int"
  | number _ => "float"
  | text _ => "str"
  | moment (.date _) => "datetime.date"
  | moment (.time _) => "datetime.time"
  | moment (.dateTime ..) => "datetime.datetime"
  | list _ => "list"
  | table _ => "dict"

end Value

end AbiBridge
