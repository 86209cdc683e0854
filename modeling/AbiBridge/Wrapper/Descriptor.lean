import AbiBridge.Boundary.Basic
import AbiBridge.Name

/-!
Functions to expose.

A `Descriptor` names one native function or method with the types of its arguments and result,
and says how it takes its receiver and whether it can fail. The symbol under which its wrapper is
exported is the one asked for, or the function's name behind the name of its owner.
-/

namespace AbiBridge

/-- How a method takes the value it is called on. -/
inductive ReceiverMode where
  /-- There is no receiver. -/
  | none
  /-- The receiver is consumed. -/
  | value
  /-- The receiver is borrowed. -/
  | ref
  /-- The receiver is borrowed and may be changed. -/
  | refMut
  /-- The receiver is consumed and may be changed. -/
  | valueMut
  deriving DecidableEq, Repr, Inhabited

namespace ReceiverMode

/-- The mode as manifests write it. -/
def text : ReceiverMode → String
  | none => "none"
  | value => "value"
  | ref => "ref"
  | refMut => "ref_mut"
  | valueMut => "value_mut"

/-- All the modes. -/
def all : List ReceiverMode := [none, value, ref, refMut, valueMut]

/-- The mode of the given text. -/
def ofText? (s : String) : Option ReceiverMode := all.find? (·.text = s)

/-- Whether the receiver is only borrowed, and so has to be handed back. -/
def isReference : ReceiverMode → Bool
  | ref | refMut => true
  | none | value | valueMut => false

/-- Whether the receiver has to be declared mutable. -/
def isMutable : ReceiverMode → Bool
  | refMut | valueMut => true
  | none | value | ref => false

theorem ofText?_text (m : ReceiverMode) : ofText? m.text = some m := by
  cases m <;> decide

end ReceiverMode

/-- One function to expose. -/
structure Descriptor where
  /-- The name of the native function. -/
  funcName : String
  /-- The type the function is defined on, if it is defined on one. -/
  owner : Option BoundaryType := none
  /-- How the receiver is taken. -/
  receiver : ReceiverMode := .none
  /-- The arguments in order. -/
  args : List (String × BoundaryType) := []
  /-- The result, if there is one. -/
  ret : Option BoundaryType := none
  /-- Whether the call gives a result or an error. -/
  fallible : Bool := false
  /-- The symbol asked for. -/
  exportName : Option String := none
  deriving DecidableEq

namespace Descriptor

/-- Whether the function is called on a value. -/
def hasReceiver (d : Descriptor) : Bool := d.receiver != .none

/-- The symbol when none is asked for. -/
def defaultSymbol (d : Descriptor) : String :=
  match d.owner with
  | some (.struct name _) => Name.baseName name ++ "_" ++ d.funcName
  | _ => d.funcName

/-- The exported symbol; an empty one counts as none asked for. -/
def symbol (d : Descriptor) : String :=
  match d.exportName with
  | some name => if name = "" then d.defaultSymbol else name
  | none => d.defaultSymbol

end Descriptor

end AbiBridge
