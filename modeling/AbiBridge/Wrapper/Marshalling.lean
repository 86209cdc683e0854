import AbiBridge.Wrapper.Statement
import AbiBridge.Wrapper.Validation

/-!
From a descriptor to its wrapper.

The body of a wrapper rebuilds the receiver and then every argument, in order, calls the native
function, routes a fallible result to the sentinels, writes the result through the out-pointers,
and last hands every borrowed handle back. `Rebuilt` is one value on its way to the call: the
statements that rebuild it, the expression that is passed, and the statements that hand it back.

`Descriptor.compile` gives the wrapper of a descriptor and `compileDestructor` the one that drops
a handle.
-/

namespace AbiBridge

/-- A value on its way to the call. -/
structure Rebuilt where
  /-- The statements that rebuild the value. -/
  steps : List Statement
  /-- The expression that is passed. -/
  expression : String
  /-- The statements that hand the value back. -/
  releases : List Statement

/-- One arm for each ordinal, and a last one that aborts. -/
def decodeEnum (name enumName : String) (variants : List String) : List Statement :=
  let patterns := (List.range variants.length).map (fun k => toString k) ++ ["_"]
  .openMatch name patterns (some name) ::
    variants.map (fun v => .arm (enumName ++ "::" ++ v)) ++
    [.arm "std::process::abort()", .closeScope]

/-- An argument on its way to the call. A struct is moved out of its box; a borrowed one stays
in its box and is handed back; a run is viewed as a slice. -/
def BoundaryType.rebuild (name : String) : BoundaryType → Except TypeFault Rebuilt
  | .primitive _ => pure ⟨[], name, []⟩
  | .struct s ps => do
      let nativeText ← (BoundaryType.struct s ps).native
      return ⟨[.reclaim name nativeText false true], name, []⟩
  | .sharedRef inner => do
      let nativeText ← inner.native
      return ⟨[.reclaim name nativeText false false], "&*" ++ name, [.release name]⟩
  | .mutRef inner => do
      let nativeText ← inner.native
      return ⟨[.reclaim name nativeText true false], "&mut *" ++ name, [.release name]⟩
  | .sequence elem => do
      let nativeText ← elem.native
      let view := "std::slice::from_raw_parts(" ++ name ++ ", " ++ companionName name ++ ")"
      return ⟨[.bind name view false (some ("&[" ++ nativeText ++ "]")) true], name, []⟩
  | .enum enumName variants => pure ⟨decodeEnum name enumName variants, name, []⟩
  | .unknown => throw .unknownType

namespace Descriptor

/-! ### The signature -/

/-- The parameters of one argument. -/
def argumentParameters (name : String) (t : BoundaryType) : Except TypeFault (List Parameter) := do
  let encoding ← t.encodeArgument
  let companion := if encoding.hasLength then [Parameter.lengthOf name] else []
  return .named name encoding.scalar .argument :: companion

/-- Whether the result is written through an out-pointer. -/
def returnsThroughPointer (fallible : Bool) : BoundaryType → Bool
  | .primitive _ => fallible
  | _ => true

/-- The out-pointers for a result. -/
def resultParameters (fallible : Bool) (ret : Option BoundaryType) :
    Except TypeFault (List Parameter) :=
  match ret with
  | none => pure []
  | some t =>
      if returnsThroughPointer fallible t then do
        let encoding ← t.encodeResult
        let length :=
          if encoding.hasLength then [.named resultLengthName lengthType .resultLength] else []
        return .named resultName encoding.scalar .result :: length
      else pure []

/-- The parameters of the wrapper: the receiver, each argument with its length behind it, and the
out-pointers. -/
def parameters (d : Descriptor) : Except TypeFault (List Parameter) := do
  let receiver := if d.hasReceiver then [Parameter.receiver] else []
  let args ← d.args.mapM fun (name, t) => argumentParameters name t
  let result ← resultParameters d.fallible d.ret
  return receiver ++ args.flatten ++ result

/-- The scalar that the wrapper itself returns: the result, if it is one and cannot fail. -/
def nativeReturn (d : Descriptor) : Option String :=
  match d.ret with
  | some (.primitive name) => if d.fallible then none else some name
  | _ => none

/-! ### The body -/

/-- The receiver on its way to the call. A borrowed receiver stays in its box. -/
def rebuildReceiver (d : Descriptor) : Except TypeFault Rebuilt :=
  match d.receiver, d.owner with
  | .none, _ | _, none => pure ⟨[], receiverName, []⟩
  | mode, some owner => do
      let nativeText ← owner.native
      let releases := if mode.isReference then [.release receiverName] else []
      return ⟨[.reclaim receiverName nativeText mode.isMutable (!mode.isReference)], receiverName,
        releases⟩

/-- The call of the native function. -/
def invocation (d : Descriptor) (args : List String) : Except TypeFault String := do
  let call := d.funcName ++ "(" ++ ", ".intercalate args ++ ")"
  if d.hasReceiver then return receiverName ++ "." ++ call
  match d.owner with
  | some (.struct name params) =>
      return (← BoundaryType.expressionPath name params) ++ "::" ++ call
  | _ => return call

/-- Routes a fallible result: on success the value goes on, on failure every borrowed handle is
handed back and the sentinel of failure is returned. -/
def dispatch (call : String) (hasValue : Bool) (releases : List Statement) : List Statement :=
  [.openMatch call [if hasValue then "Ok(" ++ valueName ++ ")" else "Ok(_)", "Err(_)"]
      (if hasValue then some valueName else none),
    .arm (if hasValue then valueName else "\x7b\x7d"),
    .armBlock (releases ++ [.line ("return " ++ failureSentinel ++ ";")]),
    .closeScope]

/-- The statements that write a result through the out-pointers. -/
def storeResult (fallible : Bool) : Option BoundaryType → Except TypeFault (List Statement)
  | none => pure []
  | some (.primitive _) => pure (if fallible then [.storeOut resultName valueName] else [])
  | some (.struct _ _) =>
      pure [.storeOut resultName
        ("Box::into_raw(Box::new(" ++ valueName ++ ")) as " ++ opaquePointer)]
  | some (.sharedRef inner) => do
      let nativeText ← inner.native
      return [.storeOut resultName
        (valueName ++ " as *const " ++ nativeText ++ " as " ++ opaquePointer)]
  | some (.mutRef inner) => do
      let nativeText ← inner.native
      return [.storeOut resultName
        (valueName ++ " as *mut " ++ nativeText ++ " as " ++ opaquePointer)]
  | some (.sequence _) =>
      pure [
        .bind valueName
          (valueName ++ ".into_iter().map(|elem| Box::into_raw(Box::new(elem)) as " ++
            opaquePointer ++ ").collect()")
          false (some ("Box<[" ++ opaquePointer ++ "]>")) false,
        .storeOut resultLengthName (valueName ++ ".len()"),
        .storeOut resultName ("Box::into_raw(" ++ valueName ++ ") as *mut " ++ opaquePointer)]
  | some (.enum name _) => throw (.enumReturned name)
  | some .unknown => throw .unknownType

/-- The wrapper of a descriptor whose types are known to be encodable. -/
def wrapper (d : Descriptor) : Except TypeFault Wrapper := do
  let params ← d.parameters
  let receiver ← d.rebuildReceiver
  let args ← d.args.mapM fun (name, t) => t.rebuild name
  let call ← d.invocation (args.map Rebuilt.expression)
  let releases := receiver.releases ++ args.flatMap Rebuilt.releases
  let called :=
    if d.fallible then dispatch call d.ret.isSome releases
    else [.call call (if d.ret.isSome then some valueName else none)]
  let stores ← storeResult d.fallible d.ret
  let last := if d.nativeReturn.isSome then [Statement.line valueName] else []
  return {
    signature := ⟨d.symbol, true, params, d.nativeReturn, d.fallible⟩
    body := receiver.steps ++ args.flatMap Rebuilt.steps ++ called ++ stores ++ releases ++ last }

/-- The wrapper of a descriptor. -/
def compile (d : Descriptor) : Except DescriptorFault Wrapper := do
  d.validate
  d.wrapper.mapError .illegalType

end Descriptor

/-- The wrapper that takes a handle back and drops it, exported under the name asked for or, if
that is none or empty, under the owner's name followed by `_free`. -/
def compileDestructor (owner : Option BoundaryType) (exportName : Option String) :
    Except DescriptorFault Wrapper :=
  match owner with
  | some (.struct structName params) => do
      let owner := BoundaryType.struct structName params
      if ← owner.mentionsSelf.mapError .illegalType then throw (.destructorOwner (some owner))
      owner.checkNames.mapError .illegalName
      let nativeText ← owner.native.mapError .illegalType
      let default := Name.baseName structName ++ "_free"
      let name := match exportName with
        | some name => if name = "" then default else name
        | none => default
      return {
        signature := ⟨name, true, [.receiver], none, false⟩
        body := [.reclaim receiverName nativeText false false,
          .line ("drop(" ++ receiverName ++ ");")] }
  | owner => throw (.destructorOwner owner)

end AbiBridge
