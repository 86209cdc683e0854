import AbiBridge.Boundary.Description
import AbiBridge.Boundary.Encoding
import AbiBridge.Boundary.Placeholder
import AbiBridge.Wrapper.Descriptor
import AbiBridge.Wrapper.Signature

/-!
Which descriptors have a wrapper.

A descriptor is checked before any statement of its wrapper is made: its names, its owner, the
names of its arguments together with the lengths beside them, and then each type in its
position. `Descriptor.validate` reports the first thing that is wrong. There is no way around a
refused combination of type and position, since a wrong guess about ownership would be a fault in
memory.
-/

namespace AbiBridge

/-- The name of the result inside a wrapper. -/
def valueName : String := "value"

/-- The names a wrapper keeps for itself. -/
def reservedNames : List String := [receiverName, resultName, resultLengthName, valueName]

/-- The name of the length beside the argument `name`. -/
def companionName (name : String) : String := name ++ "_len"

/-- Why a descriptor has no wrapper. -/
inductive DescriptorFault where
  /-- A name may not be spliced. -/
  | illegalName (fault : NameFault)
  /-- A type cannot be encoded. -/
  | illegalType (fault : TypeFault)
  /-- The owner is no struct, or there is none where one has to be. -/
  | ownerNotStruct (func : String) (owner : Option BoundaryType)
  /-- There is a receiver and no owner. -/
  | receiverWithoutOwner (func : String) (mode : ReceiverMode)
  /-- The owner itself mentions the placeholder. -/
  | ownerMentionsSelf (func : String)
  /-- An argument has a name that wrappers use. -/
  | reservedName (name : String)
  /-- An argument has the name of an earlier argument or length. -/
  | duplicateName (name : String)
  /-- The length of an argument has the name of an earlier argument or length. -/
  | companionTaken (companion : String)
  /-- The placeholder is left in an argument's type. -/
  | argumentMentionsSelf (name : String)
  /-- The placeholder is left in the result's type. -/
  | resultMentionsSelf (func : String)
  /-- An argument borrows something other than a struct. -/
  | argumentBorrow (name : String) (t : BoundaryType)
  /-- An argument is a run of something other than scalars. -/
  | argumentSequence (name : String) (t : BoundaryType)
  /-- An argument is of an enum that nothing can be decoded to. -/
  | enumWithoutVariants (name enumName : String)
  /-- The result borrows something other than a struct or scalar. -/
  | resultBorrow (t : BoundaryType)
  /-- The result is a run and the function does not use the result protocol. -/
  | sequenceNotFallible
  /-- The result is a run of something other than scalars or structs. -/
  | resultSequence (t : BoundaryType)
  /-- The owner of a destructor is no struct, or mentions the placeholder. -/
  | destructorOwner (owner : Option BoundaryType)

namespace DescriptorFault

/-- The wording of a fault. -/
def message : DescriptorFault → String
  | illegalName fault => fault.message
  | illegalType fault => fault.message
  | ownerNotStruct func owner =>
      let shown := BoundaryType.describe? owner
      s!"Owner of '{func}' must be a Struct, got {shown}"
  | receiverWithoutOwner func mode =>
      let shown := mode.text
      s!"'{func}' takes a receiver ({shown}) but has no owner"
  | ownerMentionsSelf func => s!"Owner of '{func}' cannot reference Self"
  | reservedName name => s!"Argument name '{name}' is reserved"
  | duplicateName name => s!"Duplicate argument name: '{name}'"
  | companionTaken companion =>
      s!"Length companion '{companion}' collides with another argument"
  | argumentMentionsSelf name => s!"Argument '{name}' has an unresolved Self placeholder"
  | resultMentionsSelf func => s!"Return type of '{func}' has an unresolved Self placeholder"
  | argumentBorrow name t =>
      let shown := t.describe
      s!"Argument '{name}': only references to structs can cross the boundary, got {shown}"
  | argumentSequence name t =>
      let shown := t.describe
      s!"Argument '{name}': sequences must hold primitives, got {shown}"
  | enumWithoutVariants name enumName =>
      s!"Argument '{name}': enum '{enumName}' declares no variants"
  | resultBorrow t =>
      let shown := t.describe
      s!"Returned references must point to a struct or primitive, got {shown}"
  | sequenceNotFallible => "Sequence returns require the fallible protocol"
  | resultSequence t =>
      let shown := t.describe
      s!"Returned sequences must hold primitives or structs, got {shown}"
  | destructorOwner owner =>
      let shown := BoundaryType.describe? owner
      s!"Destructor owner must be a concrete Struct, got {shown}"

end DescriptorFault

namespace BoundaryType

/-! ### Names inside a type -/

mutual

/-- Accepts the types whose struct paths, enum paths and variants may all be spliced. -/
def checkNames : BoundaryType → Except NameFault Unit
  | struct name params => do
      Name.checkPath .structName name
      checkNamesAll params
  | sharedRef inner | mutRef inner => checkNames inner
  | sequence elem => checkNames elem
  | enum name variants => do
      Name.checkPath .enumName name
      variants.forM (Name.check .enumVariant)
  | primitive _ | unknown => pure ()

/-- Accepts the lists all of whose types have names that may be spliced. -/
def checkNamesAll : List BoundaryType → Except NameFault Unit
  | [] => pure ()
  | t :: ts => do
      checkNames t
      checkNamesAll ts

end

/-! ### Types in their positions -/

/-- Accepts the types that an argument may have. -/
def checkArgument (name : String) (t : BoundaryType) : Except DescriptorFault Unit := do
  let _ ← t.encodeArgument.mapError .illegalType
  match t with
  | primitive _ | struct _ _ => pure ()
  | sharedRef (struct _ _) | mutRef (struct _ _) => pure ()
  | sharedRef _ | mutRef _ => throw (.argumentBorrow name t)
  | sequence (primitive _) => pure ()
  | sequence _ => throw (.argumentSequence name t)
  | enum enumName variants =>
      if variants.isEmpty then throw (.enumWithoutVariants name enumName)
  | unknown => throw (.illegalType .unknownType)

/-- Accepts the types that a result may have. -/
def checkResult (fallible : Bool) (t : BoundaryType) : Except DescriptorFault Unit := do
  let _ ← t.encodeResult.mapError .illegalType
  match t with
  | primitive _ | struct _ _ => pure ()
  | sharedRef (struct _ _) | sharedRef (primitive _) => pure ()
  | mutRef (struct _ _) | mutRef (primitive _) => pure ()
  | sharedRef _ | mutRef _ => throw (.resultBorrow t)
  | sequence elem =>
      if !fallible then throw .sequenceNotFallible
      match elem with
      | primitive _ | struct _ _ => pure ()
      | _ => throw (.resultSequence t)
  | enum name _ => throw (.illegalType (.enumReturned name))
  | unknown => throw (.illegalType .unknownType)

end BoundaryType

namespace Descriptor

/-! ### A whole descriptor -/

/-- Accepts an owner that is a concrete struct, and no owner where there is no receiver. -/
def checkOwner (d : Descriptor) : Except DescriptorFault Unit :=
  match d.owner with
  | none => if d.hasReceiver then throw (.receiverWithoutOwner d.funcName d.receiver) else pure ()
  | some (.struct name params) => do
      let owner := BoundaryType.struct name params
      if ← owner.mentionsSelf.mapError .illegalType then throw (.ownerMentionsSelf d.funcName)
      owner.checkNames.mapError .illegalName
  | owner => throw (.ownerNotStruct d.funcName owner)

/-- Accepts arguments whose names, together with the names of their lengths, are pairwise
distinct, distinct from those in `seen`, and free for use. -/
def checkArgumentNames (seen : List String) :
    List (String × BoundaryType) → Except DescriptorFault Unit
  | [] => pure ()
  | (name, t) :: args => do
      (Name.check .argumentName name).mapError .illegalName
      if reservedNames.contains name then throw (.reservedName name)
      if seen.contains name then throw (.duplicateName name)
      match t with
      | .sequence _ =>
          if seen.contains (companionName name) then throw (.companionTaken (companionName name))
          checkArgumentNames (companionName name :: name :: seen) args
      | _ => checkArgumentNames (name :: seen) args

/-- Accepts one argument for its type. -/
def checkArgument (name : String) (t : BoundaryType) : Except DescriptorFault Unit := do
  if ← t.mentionsSelf.mapError .illegalType then throw (.argumentMentionsSelf name)
  t.checkNames.mapError .illegalName
  t.checkArgument name

/-- Accepts a result for its type. -/
def checkResult (func : String) (fallible : Bool) (t : BoundaryType) :
    Except DescriptorFault Unit := do
  if ← t.mentionsSelf.mapError .illegalType then throw (.resultMentionsSelf func)
  t.checkNames.mapError .illegalName
  t.checkResult fallible

/-- Accepts the descriptors that have a wrapper, or gives the first thing that is wrong. -/
def validate (d : Descriptor) : Except DescriptorFault Unit := do
  (Name.check .functionName d.funcName).mapError .illegalName
  d.exportName.forM fun name => (Name.check .exportedSymbol name).mapError .illegalName
  d.checkOwner
  checkArgumentNames [] d.args
  d.args.forM fun (name, t) => checkArgument name t
  d.ret.forM (checkResult d.funcName d.fallible)

end Descriptor

end AbiBridge
