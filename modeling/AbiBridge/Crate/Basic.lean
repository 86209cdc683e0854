import AbiBridge.Failure
import AbiBridge.Files.Path
import AbiBridge.Journal
import AbiBridge.Settings.Basic
import AbiBridge.Source.Session
import AbiBridge.Text.Markup
import AbiBridge.Toml.Inline

/-!
A crate in the making.

A `Crate` collects the wrappers of exported functions and what the crate depends on. Each
operation on it is a `Registering`: it changes the crate, or fails with a `Failure` and leaves the
crate as the answer shows. The name of the wrapped package has underscores for dashes inside the
crate, and dashes for underscores in the crate's own name.
-/

namespace AbiBridge

open Text

/-- A crate in the making. -/
structure Crate where
  /-- The name of the wrapped package, with underscores. -/
  package : String
  /-- The folder of the crate. -/
  folder : Path
  /-- The settings of the run. -/
  settings : Settings := {}
  /-- The wrappers written so far. -/
  emitter : Emitter := {}
  /-- The functions registered so far, in order. -/
  descriptors : List Descriptor := []
  /-- The signatures of the exported functions, destructors included, in order. -/
  signatures : List Signature := []
  /-- The entries of the crate's dependencies, in order. -/
  dependencies : List String := []
  /-- The paths that are brought into scope, in order. -/
  imports : List String := []
  /-- The exported symbols, each with what it was exported for, in order. -/
  symbols : List (String × String) := []
  /-- What there is to tell about the registrations. -/
  notes : List Note := []

/-- An operation on a crate in the making. -/
abbrev Registering := EStateM Failure Crate

/-- A text with every occurrence of one character replaced by another. -/
def replaceChar (old new : Char) (s : String) : String :=
  String.ofList (s.toList.map fun c => if c = old then new else c)

/-- The name of the crate that wraps a package. -/
def crateNameFor (package : String) : String := replaceChar '_' '-' package ++ "-c"

namespace Crate

/-- The name of the crate. -/
def name (c : Crate) : String := crateNameFor c.package

/-- An empty crate for the package of the given name, in a folder of its own below `output`. -/
def new (packageName : String) (output : Path) (settings : Settings) : Crate :=
  let package := replaceChar '-' '_' packageName
  { package, folder := output.join (Path.ofString (crateNameFor package)), settings }

end Crate

/-- The traits of a struct for which there are wrappers. -/
inductive DerivedTrait where
  | default
  | clone
  | partialEq
  | eq
  deriving DecidableEq, Repr

namespace DerivedTrait

/-- The trait as manifests write it. -/
def text : DerivedTrait → String
  | default => "default"
  | clone => "clone"
  | partialEq => "partial_eq"
  | eq => "eq"

/-- All the traits. -/
def all : List DerivedTrait := [default, clone, partialEq, eq]

/-- The trait of the given text. -/
def ofText? (s : String) : Option DerivedTrait := all.find? (·.text = s)

theorem ofText?_text (d : DerivedTrait) : ofText? d.text = some d := by
  cases d <;> decide

end DerivedTrait

namespace Registering

/-- An operation on the wrappers of the crate. -/
def emission {α : Type} (x : Emission α) : Registering α := fun c =>
  match x c.emitter with
  | .ok a e => .ok a { c with emitter := e }
  | .error fault e => .error (.scope fault) { c with emitter := e }

/-- Tells something about a registration. -/
def note (level : Level) (text : String) : Registering Unit :=
  modify fun c => { c with notes := c.notes ++ [.ofText level text] }

/-! ### Dependencies -/

/-- The entry of a dependency with its options. -/
def dependencyEntry (name : String) (options : List (String × Value)) :
    Except RegistrationFault String := do
  if options.isEmpty then throw (.crateWithoutOptions name)
  let rendered ← options.mapM fun (key, value) =>
    match Toml.inline value with
    | .ok text => pure (key ++ " = " ++ text)
    | .error fault => throw (.unrenderable fault)
  return name ++ " = \x7b " ++ ", ".intercalate rendered ++ " \x7d"

/-- Adds a dependency with its options. -/
def addDependency (name : String) (options : List (String × Value)) : Registering Unit :=
  match dependencyEntry name options with
  | .error fault => throw (.registration fault)
  | .ok entry => modify fun c => { c with dependencies := c.dependencies ++ [entry] }

/-- Adds a dependency of a given version. -/
def addVersion (name version : String) : Registering Unit :=
  addDependency name [("version", .text version)]

/-- Adds a dependency that lies at a path. -/
def addPath (name path : String) : Registering Unit := addDependency name [("path", .text path)]

/-- Brings a path into scope. -/
def addImport (path : String) : Registering Unit :=
  modify fun c => { c with imports := c.imports ++ [path] }

/-! ### Functions -/

/-- Claims a symbol, which has to be free. -/
def claim (symbol origin : String) : Registering Unit := do
  match (← get).symbols.lookup symbol with
  | some previous => throw (.registration (.symbolTaken symbol origin previous))
  | none => modify fun c => { c with symbols := c.symbols ++ [(symbol, origin)] }

/-- Claims the symbol of a wrapper and writes the wrapper. -/
def exportWrapper (w : Wrapper) (origin : String) : Registering Unit := do
  claim w.signature.name origin
  emission w.emit

/-- Registers a function. -/
def register (d : Descriptor) : Registering Descriptor := do
  match d.compile with
  | .error fault => throw (.descriptor fault)
  | .ok w => do
      exportWrapper w d.funcName
      modify fun c => { c with
        descriptors := c.descriptors ++ [d]
        signatures := c.signatures ++ [w.signature] }
      note .debug ("Registered [code]" ++ escapeMarkup d.symbol ++ "[/code]")
      return d

/-- The descriptor with the owner in the place of the placeholder in its types. -/
def resolved (d : Descriptor) (owner : BoundaryType) : Except TypeFault Descriptor := do
  let args ← d.args.mapM fun (name, t) => return (name, ← t.resolveSelf owner)
  let ret ← d.ret.mapM fun t => t.resolveSelf owner
  return { d with owner := some owner, args, ret }

/-- Registers a function that is defined on a struct. -/
def addMethod (owner : Option BoundaryType) (d : Descriptor) : Registering Descriptor :=
  match owner with
  | some (.struct name params) =>
      match resolved d (.struct name params) with
      | .error fault => throw (.type fault)
      | .ok d => register d
  | owner => throw (.descriptor (.ownerNotStruct d.funcName owner))

/-- Registers a function of its own. -/
def addFunction (d : Descriptor) : Registering Descriptor :=
  register { d with owner := none, receiver := .none }

/-- Registers the destructor of a handle. -/
def addDestructor (structName : String) (params : List BoundaryType) : Registering Unit := do
  match compileDestructor (some (.struct structName params)) none with
  | .error fault => throw (.descriptor fault)
  | .ok w => do
      exportWrapper w (structName ++ " destructor")
      modify fun c => { c with signatures := c.signatures ++ [w.signature] }

/-- Registers a handle to a struct: its destructor, and a wrapper for each of its traits. Both
kinds of equality share one wrapper. -/
def addHandle (t : Option BoundaryType) (traits : List DerivedTrait) : Registering Unit := do
  match t with
  | some (.struct name params) => do
      let self := BoundaryType.struct name params
      addDestructor name params
      if traits.contains .default then
        discard (addMethod t { funcName := "default", ret := t })
      if traits.contains .clone then
        discard (addMethod t
          { funcName := "clone", args := [("source", .sharedRef self)], ret := t })
      if traits.contains .partialEq && traits.contains .eq then
        note .warning ("[code]" ++ escapeMarkup (Name.baseName name) ++
          "[/code] derives PartialEq and Eq; both share one _eq wrapper")
      if traits.contains .partialEq || traits.contains .eq then
        discard (addMethod t
          { funcName := "eq"
            args := [("left", .sharedRef self), ("right", .sharedRef self)]
            ret := some (.primitive "bool") })
  | t => throw (.registration (.handleNotStruct t))

end Registering

end AbiBridge
