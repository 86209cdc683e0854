import AbiBridge.Manifest.Basic
import AbiBridge.Toml.Reader

/-!
Manifests from data and documents.

`Manifest.ofValue` checks every field of the data and reports everything that is wrong;
fields of other names are passed over. `Manifest.ofBytes` reads a document first, and
`Manifest.load` a file.

* `checkVariants_eq_ok_iff`: an enum has variants, and each of them once.
-/

namespace AbiBridge

open Text Checked

namespace Manifest

/-- A path. -/
def checkPath : Value → Checked Path
  | .text s => .ok (Path.ofString s)
  | _ => complain .notPath

/-- A list of texts. -/
def checkTexts (v : Value) : Checked (List String) := v.asListOf Value.asText

/-- The fields of the package. -/
def checkPackage (t : Table) : Checked Package :=
  let name := t.required "name" Value.asText
  let output := t.optional "output" {} checkPath
  let imports := t.optional "imports" [] checkTexts
  (name.both (output.both imports)).map fun (name, output, imports) => ⟨name, output, imports⟩

/-- The rule for the variants of an enum. -/
def brokenVariants (variants : List String) : Option String :=
  if variants.isEmpty then some "an enum needs at least one variant"
  else if ¬variants.Nodup then
    some ("duplicate variants in [" ++ ", ".intercalate (variants.map quoted) ++ "]")
  else none

/-- The variants of an enum. -/
def checkVariants (v : Value) : Checked (List String) := (checkTexts v).obeying brokenVariants

/-- The fields of an enum. -/
def checkEnum (t : Table) : Checked (List String) := t.required "variants" checkVariants

/-- One of the traits. -/
def checkTrait : Value → Checked DerivedTrait :=
  Value.asOneOf (DerivedTrait.all.map fun d => (d.text, d))

/-- The fields of a handle. -/
def checkHandle (t : Table) : Checked Handle :=
  let name := t.required "name" Value.asText
  let traits := t.optional "traits" [] (Value.asListOf checkTrait)
  (name.both traits).map fun (name, traits) => ⟨name, traits⟩

/-- One of the modes of a receiver. -/
def checkReceiver : Value → Checked ReceiverMode :=
  Value.asOneOf (ReceiverMode.all.map fun m => (m.text, m))

/-- The fields of an argument. -/
def checkArgument (t : Table) : Checked Argument :=
  let name := t.required "name" Value.asText
  let type := t.required "type" Value.asText ["type_name"]
  (name.both type).map fun (name, type) => ⟨name, type⟩

/-- The fields of a function. -/
def checkFunction (t : Table) : Checked Function :=
  let name := t.required "name" Value.asText
  let owner := t.optional "owner" none Value.asTextOrNull
  let receiver := t.optional "self" .none checkReceiver ["self_mode"]
  let args := t.optional "args" [] (Value.asListOf (Value.asRecord "ArgSpec" checkArgument))
  let ret := t.optional "ret" none Value.asTextOrNull
  let fallible := t.optional "fallible" false Value.asBoolean
  let exportName := t.optional "extern_name" none Value.asTextOrNull
  (name.both (owner.both (receiver.both (args.both (ret.both (fallible.both exportName)))))).map
    fun (name, owner, receiver, args, ret, fallible, exportName) =>
      ⟨name, owner, receiver, args, ret, fallible, exportName⟩

/-- The fields of a manifest. -/
def check (t : Table) : Checked Manifest :=
  let package := t.required "package" (Value.asRecord "PackageSpec" checkPackage)
  let crates := t.optional "crates" [] (Value.asTableOf Value.asTable)
  let enums := t.optional "enums" [] (Value.asTableOf (Value.asRecord "EnumSpec" checkEnum))
  let handles := t.optional "structs" [] (Value.asListOf (Value.asRecord "StructSpec" checkHandle))
  let functions :=
    t.optional "functions" [] (Value.asListOf (Value.asRecord "FunctionSpec" checkFunction))
  (package.both (crates.both (enums.both (handles.both functions)))).map
    fun (package, crates, enums, handles, functions) =>
      ⟨package, crates, enums, handles, functions⟩

/-- The manifest that data gives, or everything that is wrong with it. -/
def ofValue (v : Value) : Except Report Manifest :=
  (v.asRecord "Manifest" check).mapError fun issues => ⟨"Manifest", issues⟩

/-- The manifest in a document; `path` is what its faults are told of. -/
def ofBytes (path : String) (content : ByteArray) : Except Failure Manifest :=
  match Toml.ofBytes content with
  | .error .notText => .error .encoding
  | .error (.notDocument fault) => .error (.manifestDocument path fault)
  | .ok t => (ofValue (.table t)).mapError (.manifestRecord path)

/-- The manifest in a file. -/
def load (files : FileTree) (path : Path) : Except Failure Manifest :=
  match files.read path with
  | .error fault => .error (.file fault)
  | .ok content => ofBytes path.text content

theorem brokenVariants_eq_none_iff {variants : List String} :
    brokenVariants variants = none ↔ variants ≠ [] ∧ variants.Nodup := by
  cases variants <;> simp [brokenVariants]

theorem checkVariants_eq_ok_iff {v : Value} {variants : List String} :
    checkVariants v = .ok variants ↔
      checkTexts v = .ok variants ∧ variants ≠ [] ∧ variants.Nodup := by
  rw [checkVariants, obeying_eq_ok_iff, brokenVariants_eq_none_iff]

end Manifest

end AbiBridge
