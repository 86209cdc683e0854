import AbiBridge.Manifest.Fields
import AbiBridge.Proofs.Files.Path
import AbiBridge.Proofs.Outcome

/-!
Manifests as data.

The checks of a manifest pass over unknown fields, fill in defaults and take some fields under two
names. What they give has a form as data with every field under its first name, and that is read as
the same manifest again.

* `Value.asListOf_map`, `Value.asTableOf_map`: a list or table of what passes its check passes;
* `Manifest.Sound`, `Manifest.sound_of_ofValue`: what the checks make sure of, among it that the
  enums have pairwise distinct variants;
* `Manifest.ofValue_toValue`: a manifest that was read is read again from its own data.
-/

namespace AbiBridge

open Outcome Checked

/-! ### What was checked -/

section Checks

variable {α : Type} {t : Table} {name : String} {default : α} {check : Value → Checked α}
  {others : List String} {a : α}

lemma Checked.under_eq_ok {key : String} {x : Checked α} : under key x = .ok a ↔ x = .ok a :=
  mapError_eq_ok

/-- A field that has to be there was checked. -/
lemma Table.exists_of_required (h : t.required name check others = .ok a) :
    ∃ v, check v = .ok a := by
  rw [required] at h
  split at h
  · exact ⟨_, under_eq_ok.mp h⟩
  · cases h

/-- A field that need not be there was checked if it is not the default. -/
lemma Table.eq_or_exists_of_optional (h : t.optional name default check others = .ok a) :
    a = default ∨ ∃ v, check v = .ok a := by
  rw [optional] at h
  split at h
  · exact Or.inr ⟨_, under_eq_ok.mp h⟩
  · exact Or.inl (Except.ok.inj h).symm

/-- Every entry of a table was checked. -/
lemma Value.exists_of_asTableOf {item : Value → Checked α} {v : Value}
    {entries : List (String × α)} (h : v.asTableOf item = .ok entries)
    {entry : String × α} (hentry : entry ∈ entries) : ∃ u, item u = .ok entry.2 := by
  cases v with
  | table t =>
      rw [asTableOf] at h
      have hall := all_eq_ok_iff.mp h
      obtain ⟨⟨key, u⟩, -, hu⟩ := List.mem_map.mp (hall ▸ List.mem_map_of_mem hentry)
      obtain ⟨a, ha, rfl⟩ := map_eq_ok.mp hu
      exact ⟨u, under_eq_ok.mp ha⟩
  | _ => cases h

/-! ### What passes the checks -/

section Fields

variable {key : String} {v : Value} (hfind : t.find? (name :: others) = some (key, v))
  (hv : check v = .ok a)

include hfind hv

lemma Table.required_eq_ok : t.required name check others = .ok a := by
  rw [required, hfind]
  exact under_eq_ok.mpr hv

lemma Table.optional_eq_ok : t.optional name default check others = .ok a := by
  rw [optional, hfind]
  exact under_eq_ok.mpr hv

end Fields

variable {item : Value → Checked α} (write : α → Value)

/-- A list passes if each of its items does. -/
lemma Value.asListOf_map {as : List α} (h : ∀ a ∈ as, item (write a) = .ok a) :
    (Value.list (as.map write)).asListOf item = .ok as := by
  rw [asListOf, items, all_eq_ok_iff, List.zipIdx_map, List.map_map]
  calc (as.zipIdx.map _) = as.zipIdx.map (Except.ok ∘ Prod.fst) := by
        refine List.map_congr_left fun e he => under_eq_ok.mpr ?_
        exact h e.1 (List.fst_mem_of_mem_zipIdx he)
    _ = as.map .ok := by rw [← List.map_map, List.zipIdx_map_fst]

/-- A table passes if each of its values does. -/
lemma Value.asTableOf_map {entries : List (String × α)}
    (h : ∀ e ∈ entries, item (write e.2) = .ok e.2) :
    (Value.table (entries.map fun e => (e.1, write e.2))).asTableOf item = .ok entries := by
  rw [asTableOf, all_eq_ok_iff, List.map_map]
  refine List.map_congr_left fun e he => ?_
  exact map_eq_ok.mpr ⟨e.2, under_eq_ok.mpr (h e he), rfl⟩

/-- Of the words for some values, a text is the one under which its value is found. -/
lemma Value.asOneOf_eq_ok_iff {all : List α} (word : α → String) {s : String} :
    Value.asOneOf (all.map fun a => (word a, a)) (.text s) = .ok a ↔
      all.find? (fun a => word a = s) = some a := by
  have hlookup : (all.map fun a => (word a, a)).lookup s = all.find? fun a => word a = s := by
    induction all with
    | nil => rfl
    | cons b all ih =>
        rw [List.map_cons, List.lookup_cons, List.find?_cons, ih]
        by_cases hb : word b = s
        · simp [hb]
        · simp [hb, beq_false_of_ne (Ne.symm hb)]
  rw [asOneOf, hlookup]
  cases all.find? fun a => word a = s with
  | none => exact iff_of_false (fun h => by cases h) fun h => by cases h
  | some b =>
      dsimp only
      rw [Except.ok.injEq, Option.some.injEq]

end Checks

namespace Manifest

/-! ### Parts of a manifest -/

lemma checkTexts_textsValue (texts : List String) : checkTexts (textsValue texts) = .ok texts :=
  Value.asListOf_map _ fun _ _ => rfl

lemma asTextOrNull_textOrNull (s : Option String) : (textOrNull s).asTextOrNull = .ok s := by
  cases s <;> rfl

lemma checkTrait_eq_ok_iff {s : String} {d : DerivedTrait} :
    checkTrait (.text s) = .ok d ↔ DerivedTrait.ofText? s = some d :=
  Value.asOneOf_eq_ok_iff DerivedTrait.text

lemma checkReceiver_eq_ok_iff {s : String} {mode : ReceiverMode} :
    checkReceiver (.text s) = .ok mode ↔ ReceiverMode.ofText? s = some mode :=
  Value.asOneOf_eq_ok_iff ReceiverMode.text

lemma asRecord_argument (a : Argument) :
    a.toValue.asRecord "ArgSpec" checkArgument = .ok a := by
  rw [Argument.toValue, Value.asRecord, checkArgument]
  refine map_eq_ok.mpr ⟨(a.name, a.type), ?_, rfl⟩
  rw [both_eq_ok_iff]
  exact ⟨Table.required_eq_ok rfl rfl, Table.required_eq_ok rfl rfl⟩

lemma asRecord_enum {variants : List String} (h : variants ≠ [] ∧ variants.Nodup) :
    (Value.table [("variants", textsValue variants)]).asRecord "EnumSpec" checkEnum =
      .ok variants := by
  rw [Value.asRecord, checkEnum]
  exact Table.required_eq_ok rfl (checkVariants_eq_ok_iff.mpr ⟨checkTexts_textsValue _, h⟩)

lemma asRecord_handle (h : Handle) : h.toValue.asRecord "StructSpec" checkHandle = .ok h := by
  have htraits : (textsValue (h.traits.map DerivedTrait.text)).asListOf checkTrait =
      .ok h.traits := by
    rw [textsValue, List.map_map]
    exact Value.asListOf_map _ fun d _ => checkTrait_eq_ok_iff.mpr d.ofText?_text
  refine map_eq_ok.mpr ⟨(h.name, h.traits), ?_, rfl⟩
  rw [both_eq_ok_iff]
  exact ⟨Table.required_eq_ok rfl rfl, Table.optional_eq_ok rfl htraits⟩

lemma asRecord_function (f : Function) :
    f.toValue.asRecord "FunctionSpec" checkFunction = .ok f := by
  have hargs : (Value.list (f.args.map Argument.toValue)).asListOf
      (Value.asRecord "ArgSpec" checkArgument) = .ok f.args :=
    Value.asListOf_map _ fun a _ => asRecord_argument a
  refine map_eq_ok.mpr
    ⟨(f.name, f.owner, f.receiver, f.args, f.ret, f.fallible, f.exportName), ?_, rfl⟩
  simp only [both_eq_ok_iff]
  exact ⟨Table.required_eq_ok rfl rfl, Table.optional_eq_ok rfl (asTextOrNull_textOrNull _),
    Table.optional_eq_ok rfl (checkReceiver_eq_ok_iff.mpr f.receiver.ofText?_text),
    Table.optional_eq_ok rfl hargs,
    Table.optional_eq_ok rfl (asTextOrNull_textOrNull _), Table.optional_eq_ok rfl rfl,
    Table.optional_eq_ok rfl (asTextOrNull_textOrNull _)⟩

/-! ### Manifests -/

/-- What the checks make sure of: the directory of the crate is a path as texts give them, and every
enum has variants, each of them once. -/
structure Sound (m : Manifest) : Prop where
  output : ∀ part ∈ m.package.output.parts, Path.IsPart part
  variants : ∀ entry ∈ m.enums, entry.2 ≠ [] ∧ entry.2.Nodup

lemma sound_of_ofValue {v : Value} {m : Manifest} (h : ofValue v = .ok m) : m.Sound := by
  have h := mapError_eq_ok.mp h
  cases v with
  | table t =>
      obtain ⟨⟨package, crates, enums, handles, functions⟩, hfields, rfl⟩ := map_eq_ok.mp h
      simp only [both_eq_ok_iff] at hfields
      obtain ⟨hpackage, -, henums, -, -⟩ := hfields
      constructor
      case output =>
        obtain ⟨u, hu⟩ := Table.exists_of_required hpackage
        cases u with
        | table fields =>
            obtain ⟨⟨name, output, imports⟩, hfields, rfl⟩ := map_eq_ok.mp hu
            simp only [both_eq_ok_iff] at hfields
            rcases Table.eq_or_exists_of_optional hfields.2.1 with rfl | ⟨u, hu⟩
            · exact fun _ hpart => absurd hpart List.not_mem_nil
            · cases u with
              | text s =>
                  cases hu
                  exact fun _ hpart => Path.isPart_of_mem_ofString hpart
              | _ => cases hu
        | _ => cases hu
      case variants =>
        intro entry hentry
        rcases Table.eq_or_exists_of_optional henums with rfl | ⟨u, hu⟩
        · exact absurd hentry List.not_mem_nil
        · obtain ⟨fields, hfields⟩ := Value.exists_of_asTableOf hu hentry
          cases fields with
          | table fields =>
              obtain ⟨variants, hvariants⟩ := Table.exists_of_required hfields
              exact (checkVariants_eq_ok_iff.mp hvariants).2
          | _ => cases hfields
  | _ => cases h

/-- The enums of a manifest passed the rule for variants. -/
lemma nodup_of_mem_enums {v : Value} {m : Manifest} (h : ofValue v = .ok m)
    {entry : String × List String} (hentry : entry ∈ m.enums) : entry.2.Nodup :=
  ((sound_of_ofValue h).variants entry hentry).2

lemma asRecord_package {m : Manifest} (h : m.Sound) :
    m.package.toValue.asRecord "PackageSpec" checkPackage = .ok m.package := by
  have houtput : checkPath (.text m.package.output.text) = .ok m.package.output :=
    congrArg Except.ok (Path.ofString_text h.output)
  refine map_eq_ok.mpr ⟨(m.package.name, m.package.output, m.package.imports), ?_, rfl⟩
  simp only [both_eq_ok_iff]
  exact ⟨Table.required_eq_ok rfl rfl, Table.optional_eq_ok rfl houtput,
    Table.optional_eq_ok rfl (checkTexts_textsValue _)⟩

/-- **Manifests as data.** Whatever data a manifest was read from, its own data is read as it. -/
theorem ofValue_toValue {v : Value} {m : Manifest} (h : ofValue v = .ok m) :
    ofValue m.toValue = .ok m := by
  have hsound := sound_of_ofValue h
  have hcrates : (Value.table (m.crates.map fun e => (e.1, Value.table e.2))).asTableOf
      Value.asTable = .ok m.crates := Value.asTableOf_map _ fun _ _ => rfl
  have henums : (Value.table (m.enums.map fun e =>
      (e.1, Value.table [("variants", textsValue e.2)]))).asTableOf
        (Value.asRecord "EnumSpec" checkEnum) = .ok m.enums :=
    Value.asTableOf_map (fun variants => .table [("variants", textsValue variants)])
      fun e he => asRecord_enum (hsound.variants e he)
  have hhandles : (Value.list (m.handles.map Handle.toValue)).asListOf
      (Value.asRecord "StructSpec" checkHandle) = .ok m.handles :=
    Value.asListOf_map _ fun h _ => asRecord_handle h
  have hfunctions : (Value.list (m.functions.map Function.toValue)).asListOf
      (Value.asRecord "FunctionSpec" checkFunction) = .ok m.functions :=
    Value.asListOf_map _ fun f _ => asRecord_function f
  refine mapError_eq_ok.mpr (map_eq_ok.mpr
    ⟨(m.package, m.crates, m.enums, m.handles, m.functions), ?_, rfl⟩)
  simp only [both_eq_ok_iff]
  exact ⟨Table.required_eq_ok rfl (asRecord_package hsound), Table.optional_eq_ok rfl hcrates,
    Table.optional_eq_ok rfl henums, Table.optional_eq_ok rfl hhandles,
    Table.optional_eq_ok rfl hfunctions⟩

end Manifest

end AbiBridge
