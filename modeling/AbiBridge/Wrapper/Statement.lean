import AbiBridge.Wrapper.Signature

/-!
Statements of a wrapper.

A wrapper is planned as a list of statements before anything is written. Taking a handle back
from its raw pointer (`reclaim`) and handing it out again (`release`) are statements of their
own, so that the passing of ownership can be read off a plan.
-/

namespace AbiBridge

/-- One statement of a plan. -/
inductive Statement where
  /-- Opens a function. -/
  | openFunction (signature : Signature)
  /-- Opens a match over `scrutinee` with the given patterns, its value bound to a name or not. -/
  | openMatch (scrutinee : String) (patterns : List String) (binding : Option String)
  /-- Closes the innermost scope. -/
  | closeScope
  /-- The next arm of a match, with an expression as its body. -/
  | arm (body : String)
  /-- The next arm of a match, with a block as its body. -/
  | armBlock (body : List Statement)
  /-- Declares a name. -/
  | bind (name value : String) (isMutable : Bool) (typeName : Option String) (unchecked : Bool)
  /-- Writes through an out-pointer. -/
  | storeOut (pointer value : String)
  /-- A line of its own. -/
  | line (text : String)
  /-- A call, its value bound to a name or not. -/
  | call (expression : String) (binding : Option String)
  /-- Takes the parameter `name` back as a box of `nativeText`. A consuming reclaim moves the value
  out of the box. -/
  | reclaim (name nativeText : String) (isMutable consume : Bool)
  /-- Hands a reclaimed box out again as a raw pointer. -/
  | release (name : String)
  deriving Inhabited, Repr

/-- The declaration of a name; an empty type counts as none. -/
def bindingText (name value : String) (isMutable : Bool) (typeName : Option String)
    (unchecked : Bool) : String :=
  let mutability := if isMutable then "mut " else ""
  let typed := match typeName with
    | none => ""
    | some t => if t = "" then "" else ": " ++ t
  let value := if unchecked then String.join ["unsafe \x7b ", value, " \x7d"] else value
  String.join ["let ", mutability, name, typed, " = ", value, ";"]

/-- The assignment through an out-pointer. -/
def storeText (pointer value : String) : String :=
  String.join ["unsafe \x7b *", pointer, " = ", value, " \x7d;"]

/-- A call with or without a name for its value; an empty name counts as none. -/
def callText (expression : String) (binding : Option String) (isMutable : Bool) : String :=
  match binding with
  | none => expression ++ ";"
  | some name =>
      if name = "" then expression ++ ";" else bindingText name expression isMutable none false

/-- Taking a handle back from its raw pointer. -/
def reclaimText (name nativeText : String) (isMutable consume : Bool) : String :=
  let moved := if consume then "*" else ""
  bindingText name (String.join [moved, "Box::from_raw(", name, " as *mut ", nativeText, ")"])
    isMutable none true

/-- Handing a reclaimed box out again. -/
def releaseText (name : String) : String := String.join ["let _ = Box::into_raw(", name, ");"]

/-- A wrapper: its signature and the statements between the braces. -/
structure Wrapper where
  /-- What stands in front of the body. -/
  signature : Signature
  /-- The statements of the body. -/
  body : List Statement

namespace Wrapper

/-- All the statements of a wrapper, from the one that opens it to the one that closes it. -/
def plan (w : Wrapper) : List Statement :=
  .openFunction w.signature :: w.body ++ [.closeScope]

end Wrapper

end AbiBridge
