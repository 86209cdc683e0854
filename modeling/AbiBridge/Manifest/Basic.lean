import AbiBridge.Boundary.Parser
import AbiBridge.Crate.Basic

/-!
Manifests.

A manifest declares what a crate is to export: the wrapped package, the crates it needs, enums by
their variants, the structs that get handles, and functions. Types stand in it as texts. A
manifest has a form as data, with a value for every field.
-/

namespace AbiBridge

namespace Manifest

/-- The wrapped package. -/
structure Package where
  name : String
  /-- Where the folder of the crate is to lie. -/
  output : Path := {}
  /-- The paths that are brought into scope. -/
  imports : List String := []
  deriving DecidableEq, Repr

/-- A struct that gets a handle. -/
structure Handle where
  /-- The type of the struct. -/
  name : String
  traits : List DerivedTrait := []
  deriving DecidableEq, Repr

/-- An argument of a function. -/
structure Argument where
  name : String
  type : String
  deriving DecidableEq, Repr

/-- A function to expose. -/
structure Function where
  name : String
  /-- The type of the struct on which the function is defined, if it is defined on one. -/
  owner : Option String := none
  receiver : ReceiverMode := .none
  args : List Argument := []
  /-- The type of the result, if there is one. -/
  ret : Option String := none
  fallible : Bool := false
  exportName : Option String := none
  deriving DecidableEq, Repr

end Manifest

/-- What a crate is to export. -/
structure Manifest where
  package : Manifest.Package
  /-- The crates that are needed, with their options. -/
  crates : List (String × Table) := []
  /-- The enums with their variants. -/
  enums : EnumTable := []
  handles : List Manifest.Handle := []
  functions : List Manifest.Function := []

namespace Manifest

/-- A list of texts as data. -/
def textsValue (texts : List String) : Value := .list (texts.map .text)

/-- A text or nothing as data. -/
def textOrNull (s : Option String) : Value := s.elim .null .text

/-- A package as data. -/
def Package.toValue (p : Package) : Value :=
  .table [("name", .text p.name), ("output", .text p.output.text),
    ("imports", textsValue p.imports)]

/-- A handle as data. -/
def Handle.toValue (h : Handle) : Value :=
  .table [("name", .text h.name), ("traits", textsValue (h.traits.map DerivedTrait.text))]

/-- An argument as data. -/
def Argument.toValue (a : Argument) : Value :=
  .table [("name", .text a.name), ("type", .text a.type)]

/-- A function as data. -/
def Function.toValue (f : Function) : Value :=
  .table [("name", .text f.name), ("owner", textOrNull f.owner), ("self", .text f.receiver.text),
    ("args", .list (f.args.map Argument.toValue)), ("ret", textOrNull f.ret),
    ("fallible", .boolean f.fallible), ("extern_name", textOrNull f.exportName)]

/-- A manifest as data. -/
def toValue (m : Manifest) : Value :=
  .table [("package", m.package.toValue),
    ("crates", .table (m.crates.map fun (name, options) => (name, .table options))),
    ("enums", .table (m.enums.map fun (name, variants) =>
      (name, .table [("variants", textsValue variants)]))),
    ("structs", .list (m.handles.map Handle.toValue)),
    ("functions", .list (m.functions.map Function.toValue))]

end Manifest

end AbiBridge
