import AbiBridge.Manifest.Basic

/-!
The registrations a manifest declares.

`Manifest.register` makes them in a fixed order: crates, imports, handles, functions. The texts of
types are read as they are reached, and the first fault ends the registration.
`Manifest.newCrate` is the crate on which they are made.
-/

namespace AbiBridge

namespace Manifest

/-- The type of a text. -/
def typeOf (enums : EnumTable) (text : String) : Except Failure BoundaryType :=
  (BoundaryType.parse enums text).mapError .typeText

/-- The type of a text that has to be a struct's; `role` says what the text stands for. -/
def structOf (enums : EnumTable) (role text : String) : Except Failure BoundaryType := do
  match ← typeOf enums text with
  | .struct name params => return .struct name params
  | _ => throw (.registration (.structExpected role text))

/-- A text, unless it is empty. -/
def nonempty (s : Option String) : Option String := s.filter (· != "")

namespace Argument

/-- The argument with its type. -/
def typed (enums : EnumTable) (a : Argument) : Except Failure (String × BoundaryType) := do
  return (a.name, ← typeOf enums a.type)

end Argument

namespace Function

/-- The descriptor of a function without its owner. -/
def descriptor (enums : EnumTable) (f : Function) : Except Failure Descriptor := do
  let args ← f.args.mapM (Argument.typed enums)
  let ret ← (nonempty f.ret).mapM (typeOf enums)
  return {
    funcName := f.name, receiver := f.receiver, args, ret, fallible := f.fallible
    exportName := f.exportName }

/-- The owner of a function, if it has one. A function without owner has no receiver. -/
def ownerType (enums : EnumTable) (f : Function) : Except Failure (Option BoundaryType) :=
  match nonempty f.owner with
  | some text =>
      let name := f.name
      some <$> structOf enums s!"Owner of '{name}'" text
  | none =>
      if f.receiver != .none then throw (.registration (.receiverWithoutOwner f.name))
      else pure none

/-- Registers a function. -/
def register (enums : EnumTable) (f : Function) : Registering Unit := do
  let d ← MonadExcept.ofExcept (f.descriptor enums)
  match ← MonadExcept.ofExcept (f.ownerType enums) with
  | some owner => discard (Registering.addMethod (some owner) d)
  | none => discard (Registering.addFunction d)

end Function

/-- Registers a handle. -/
def Handle.register (enums : EnumTable) (h : Handle) : Registering Unit := do
  let t ← MonadExcept.ofExcept (structOf enums "Struct" h.name)
  Registering.addHandle (some t) h.traits

/-- Registers all that a manifest declares. -/
def register (m : Manifest) : Registering Unit := do
  m.crates.forM fun (name, options) => Registering.addDependency name options
  m.package.imports.forM Registering.addImport
  m.handles.forM (Handle.register m.enums)
  m.functions.forM (Function.register m.enums)

/-- Where the folder of the crate lies: below the place that is asked for or, if none is, the one
of the manifest, as seen from `base`. -/
def outputFolder (m : Manifest) (base : Path) (output : Option Path) : Path :=
  base.join (output.getD m.package.output)

/-- The crate on which the registrations are made. -/
def newCrate (m : Manifest) (base : Path) (output : Option Path) (settings : Settings) : Crate :=
  .new m.package.name (m.outputFolder base output) settings

end Manifest

end AbiBridge
