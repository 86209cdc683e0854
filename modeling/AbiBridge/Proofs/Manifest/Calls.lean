import AbiBridge.Manifest.Build
import AbiBridge.Proofs.Boundary.RoundTrip
import AbiBridge.Proofs.Crate.Registration

/-!
Manifests as calls.

A manifest gives every type as a text, which is read as the manifest is registered. What it comes to
is a list of registrations with the types themselves. The texts are the native ones here, so this
rests on their being read as the types that they were written for.

* `Declarations`: what a manifest declares, with types in the place of their texts;
* `Declarations.calls`: the registrations, in the order in which a manifest makes them;
* `Declarations.manifest`: the manifest in which the types are written out;
* `register_alike_calls`: the two make the same crate.
-/

namespace AbiBridge

open Outcome

/-! ### Declarations -/

/-- What a crate is to export, with types in the place of their texts. -/
structure Declarations where
  /-- The name of the wrapped package. -/
  package : String
  /-- Where the folder of the crate is to lie. -/
  output : Path := {}
  imports : List String := []
  crates : List (String × Table) := []
  enums : EnumTable := []
  handles : List (BoundaryType × List DerivedTrait) := []
  /-- The functions, with their owners if they are defined on some. -/
  functions : List Descriptor := []

namespace Descriptor

/-- The types of a function. -/
def types (d : Descriptor) : List BoundaryType :=
  d.owner.toList ++ d.args.map Prod.snd ++ d.ret.toList

/-- The registration of a function, on its owner if it has one. -/
def call (d : Descriptor) : Registration :=
  match d.owner with
  | some t => .method (some t) d
  | none => .function d

/-- The function as it is written in a manifest. -/
def written (d : Descriptor) : Except TypeFault Manifest.Function := do
  let owner ← d.owner.mapM BoundaryType.native
  let args ← d.args.mapM fun a => return Manifest.Argument.mk a.1 (← a.2.native)
  let ret ← d.ret.mapM BoundaryType.native
  return {
    name := d.funcName, owner, receiver := d.receiver, args, ret, fallible := d.fallible
    exportName := d.exportName }

end Descriptor

namespace Declarations

variable (p : Declarations)

/-- The registrations that are declared: crates, imports, handles, functions. -/
def calls : List Registration :=
  p.crates.map (fun c => .dependency c.1 c.2) ++ (p.imports.map .path ++
    (p.handles.map (fun h => .handle (some h.1) h.2) ++ p.functions.map Descriptor.call))

/-- The manifest in which the types are written as their native texts. -/
def manifest : Except TypeFault Manifest := do
  let handles ← p.handles.mapM fun h => return Manifest.Handle.mk (← h.1.native) h.2
  let functions ← p.functions.mapM Descriptor.written
  return {
    package := { name := p.package, output := p.output, imports := p.imports }
    crates := p.crates, enums := p.enums, handles, functions }

/-- The declarations of which there is a manifest: every type is that of some text, and a function
without owner has no receiver. -/
structure Declarable : Prop where
  handles : ∀ h ∈ p.handles, ∃ text, BoundaryType.parse p.enums text = .ok h.1
  functions : ∀ d ∈ p.functions, ∀ t ∈ d.types, ∃ text, BoundaryType.parse p.enums text = .ok t
  receivers : ∀ d ∈ p.functions, d.owner = none → d.receiver = .none

end Declarations

/-! ### Types and their texts -/

namespace BoundaryType

variable {enums : EnumTable}

lemma WellFormed.exists_parse {t : BoundaryType} (h : WellFormed enums t) :
    ∃ text, parse enums text = .ok t := by
  obtain ⟨text, -, hreads⟩ := h.exists_reading
  exact ⟨text, hreads.parse_eq_ok⟩

/-- A type that some text is read as has a native text, which is read as it. -/
lemma exists_native_of_parse {t : BoundaryType} (h : ∃ text, parse enums text = .ok t) :
    ∃ text, t.native = .ok text ∧ parse enums text = .ok t := by
  obtain ⟨text, hparse⟩ := h
  obtain ⟨ts, hts, hderived⟩ := parse_eq_ok_iff.mp hparse
  obtain ⟨again, hnative, hreads⟩ :=
    (hderived.wellFormed (Token.isWritable_of_tokenize hts)).exists_reading
  exact ⟨again, hnative, hreads.parse_eq_ok⟩

/-- No type has an empty text. -/
lemma ne_empty_of_parse {t : BoundaryType} {text : String} (h : parse enums text = .ok t) :
    text ≠ "" := by
  rintro rfl
  obtain ⟨ts, hts, hderived⟩ := parse_eq_ok_iff.mp h
  have hnone : Token.tokenize "" = .ok [] := Token.tokenize_eq_ok_of_spelled .nil
  exact hderived.ne_nil (Except.ok.inj (hts.symm.trans hnone))

end BoundaryType

/-! ### Entries of a manifest -/

section Entries

variable {enums : EnumTable}

/-- The text of a type is read as it. -/
lemma Manifest.typeOf_eq {t : BoundaryType} {text : String}
    (h : BoundaryType.parse enums text = .ok t) : Manifest.typeOf enums text = .ok t := by
  rw [Manifest.typeOf, h]
  rfl

/-- The text of a type is not passed over as an empty one. -/
lemma Manifest.nonempty_eq {t : BoundaryType} {text : String}
    (h : BoundaryType.parse enums text = .ok t) : Manifest.nonempty (some text) = some text :=
  Option.filter_eq_some_iff.mpr ⟨rfl, by simpa using BoundaryType.ne_empty_of_parse h⟩

/-- A text that has to be a struct's is a struct's, or it is refused. -/
lemma Manifest.structOf_cases {t : BoundaryType} {text : String}
    (h : BoundaryType.parse enums text = .ok t) (role : String) :
    (∃ name params, t = .struct name params ∧ Manifest.structOf enums role text = .ok t) ∨
      (∀ name params, t ≠ .struct name params) ∧
        ∃ failure, Manifest.structOf enums role text = .error failure := by
  rw [Manifest.structOf, Manifest.typeOf_eq h]
  cases t with
  | struct name params => exact Or.inl ⟨name, params, rfl, rfl⟩
  | _ => exact Or.inr ⟨nofun, _, rfl⟩

/-- A handle of the manifest is registered as the one that it was written for. -/
lemma Manifest.Handle.alike_call {t : BoundaryType} {text : String}
    (h : BoundaryType.parse enums text = .ok t) (traits : List DerivedTrait) :
    Alike (Manifest.Handle.register enums ⟨text, traits⟩)
      (Registration.handle (some t) traits).perform := by
  rw [Manifest.Handle.register, Registration.perform]
  rcases Manifest.structOf_cases h "Struct" with ⟨name, params, rfl, hok⟩ | ⟨hother, failure, hfail⟩
  · rw [hok]
    exact .refl _
  · rw [hfail]
    refine .of_fail (fun c => ⟨failure, c, rfl⟩) fun c => ?_
    cases t with
    | struct name params => exact absurd rfl (hother name params)
    | _ => exact ⟨_, c, rfl⟩

/-- A function of a manifest in which every type is written as a text that is read as it. -/
structure Manifest.Function.Writes (enums : EnumTable) (f : Manifest.Function) (d : Descriptor) :
    Prop where
  name : f.name = d.funcName
  owner : Option.Rel (fun text t => BoundaryType.parse enums text = .ok t) f.owner d.owner
  receiver : f.receiver = d.receiver
  args : List.Forall₂ (fun a b => a.name = b.1 ∧ BoundaryType.parse enums a.type = .ok b.2)
    f.args d.args
  ret : Option.Rel (fun text t => BoundaryType.parse enums text = .ok t) f.ret d.ret
  fallible : f.fallible = d.fallible
  exportName : f.exportName = d.exportName

/-- What may be written has a text, or it is not there. -/
lemma exists_rel_of_parse {o : Option BoundaryType}
    (h : ∀ t ∈ o, ∃ text, BoundaryType.parse enums text = .ok t) :
    ∃ written, o.mapM BoundaryType.native = .ok written ∧
      Option.Rel (fun text t => BoundaryType.parse enums text = .ok t) written o := by
  cases o with
  | none => exact ⟨none, rfl, .none⟩
  | some t =>
      obtain ⟨text, hnative, hparse⟩ := BoundaryType.exists_native_of_parse (h t rfl)
      refine ⟨some text, ?_, .some hparse⟩
      rw [Option.mapM_some, hnative]
      rfl

/-- A function all of whose types are those of some texts can be written. -/
lemma Descriptor.exists_written {d : Descriptor}
    (h : ∀ t ∈ d.types, ∃ text, BoundaryType.parse enums text = .ok t) :
    ∃ f, d.written = .ok f ∧ f.Writes enums d := by
  have howner : ∀ t ∈ d.owner, t ∈ d.types := fun t ht => by
    rw [Option.mem_def] at ht
    simp [Descriptor.types, ht]
  have hret : ∀ t ∈ d.ret, t ∈ d.types := fun t ht => by
    rw [Option.mem_def] at ht
    simp [Descriptor.types, ht]
  obtain ⟨owner, howner, hon⟩ := exists_rel_of_parse fun t ht => h t (howner t ht)
  obtain ⟨ret, hret, hresult⟩ := exists_rel_of_parse fun t ht => h t (hret t ht)
  obtain ⟨args, hargs, htyped⟩ := exists_mapM_rel (l := d.args)
    (f := fun a => return Manifest.Argument.mk a.1 (← a.2.native))
    (R := fun a b => a.name = b.1 ∧ BoundaryType.parse enums a.type = .ok b.2) (by
      intro a ha
      have hmem : a.2 ∈ d.types := by
        rw [Descriptor.types]
        exact List.mem_append_left _ (List.mem_append_right _ (List.mem_map_of_mem ha))
      obtain ⟨text, hnative, hparse⟩ := BoundaryType.exists_native_of_parse (h a.2 hmem)
      exact ⟨⟨a.1, text⟩, bind_eq_ok.mpr ⟨text, hnative, rfl⟩, rfl, hparse⟩)
  refine ⟨⟨d.funcName, owner, d.receiver, args, ret, d.fallible, d.exportName⟩, ?_, ?_⟩
  · rw [Descriptor.written]
    exact bind_eq_ok.mpr ⟨owner, howner, bind_eq_ok.mpr ⟨args, hargs, bind_eq_ok.mpr
      ⟨ret, hret, rfl⟩⟩⟩
  · exact ⟨rfl, hon, rfl, htyped, hresult, rfl, rfl⟩

namespace Manifest.Function.Writes

variable {f : Manifest.Function} {d : Descriptor}

/-- The texts of the types are read as they were written. -/
lemma descriptor_eq (h : f.Writes enums d) :
    f.descriptor enums = .ok { d with owner := none } := by
  have hargs : f.args.mapM (Argument.typed enums) = .ok d.args := by
    refine mapM_eq_ok.mpr (h.args.imp fun a b hab => ?_)
    rw [Argument.typed, typeOf_eq hab.2]
    exact congrArg Except.ok (Prod.ext hab.1 rfl)
  have hret : (nonempty f.ret).mapM (typeOf enums) = .ok d.ret := by
    have hresult := h.ret
    generalize f.ret = written at hresult
    generalize d.ret = ret at hresult
    cases hresult with
    | none => rfl
    | some hparse =>
        rw [nonempty_eq hparse, Option.mapM_some, typeOf_eq hparse]
        rfl
  rw [descriptor]
  refine bind_eq_ok.mpr ⟨_, hargs, bind_eq_ok.mpr ⟨_, hret, ?_⟩⟩
  rw [h.name, h.receiver, h.fallible, h.exportName]
  rfl

/-- A function of the manifest is registered as the one that it was written for. -/
lemma alike_call (h : f.Writes enums d) (hreceiver : d.owner = none → d.receiver = .none) :
    Alike (Function.register enums f) d.call.perform := by
  have hread : Function.register enums f =
      (MonadExcept.ofExcept (f.ownerType enums) >>= fun
        | some owner => discard (Registering.addMethod (some owner) { d with owner := none })
        | none => discard (Registering.addFunction { d with owner := none })) := by
    rw [register, h.descriptor_eq]
    rfl
  rw [hread, ownerType, h.receiver]
  have howner := h.owner
  generalize f.owner = written at howner
  obtain ⟨name, owner, receiver, args, ret, fallible, exportName⟩ := d
  dsimp only at howner hreceiver ⊢
  cases howner with
  | none =>
      rw [hreceiver rfl]
      exact .refl _
  | @some text t hparse =>
      rw [nonempty_eq hparse]
      dsimp only
      rcases structOf_cases hparse s!"Owner of '{f.name}'" with
        ⟨_, _, rfl, hok⟩ | ⟨hother, failure, hfail⟩
      · rw [hok]
        exact .refl _
      · rw [hfail]
        refine .of_fail (fun c => ⟨failure, c, rfl⟩) fun c => ?_
        cases t with
        | struct name params => exact absurd rfl (hother name params)
        | _ => exact ⟨_, c, rfl⟩

end Manifest.Function.Writes

end Entries

/-! ### The whole manifest -/

namespace Declarations

/-- What a manifest comes to in which declarations are written. -/
lemma exists_manifest {p : Declarations} (h : p.Declarable) :
    ∃ handles functions, p.manifest = .ok {
        package := { name := p.package, output := p.output, imports := p.imports }
        crates := p.crates, enums := p.enums, handles, functions } ∧
      List.Forall₂ (fun a b => BoundaryType.parse p.enums a.name = .ok b.1 ∧ a.traits = b.2)
        handles p.handles ∧
      List.Forall₂ (fun f d => f.Writes p.enums d ∧ (d.owner = none → d.receiver = .none))
        functions p.functions := by
  obtain ⟨handles, hhandles, hstructs⟩ := exists_mapM_rel (l := p.handles)
    (f := fun h => return Manifest.Handle.mk (← h.1.native) h.2)
    (R := fun a b => BoundaryType.parse p.enums a.name = .ok b.1 ∧ a.traits = b.2)
    fun b hb => by
      obtain ⟨text, hnative, hparse⟩ := BoundaryType.exists_native_of_parse (h.handles b hb)
      exact ⟨⟨text, b.2⟩, bind_eq_ok.mpr ⟨text, hnative, rfl⟩, hparse, rfl⟩
  obtain ⟨functions, hfunctions, hwritten⟩ := exists_mapM_rel (l := p.functions)
    (f := Descriptor.written)
    (R := fun f d => f.Writes p.enums d ∧ (d.owner = none → d.receiver = .none))
    fun d hd => by
      obtain ⟨f, hf, hwrites⟩ := Descriptor.exists_written (h.functions d hd)
      exact ⟨f, hf, hwrites, h.receivers d hd⟩
  refine ⟨handles, functions, ?_, hstructs, hwritten⟩
  rw [manifest]
  exact bind_eq_ok.mpr ⟨handles, hhandles, bind_eq_ok.mpr ⟨functions, hfunctions, rfl⟩⟩

end Declarations

/-- **A manifest makes what the calls make.** Declarations whose types are all those of some texts
can be written as a manifest, and on a new crate the manifest is registered without a failure
exactly if the registrations with the types themselves are; then the two are the same crate, with
its library, its dependencies, its signatures and its descriptors. -/
theorem register_alike_calls (p : Declarations) (h : p.Declarable) :
    ∃ m, p.manifest = .ok m ∧ ∀ (base : Path) (output : Option Path) (settings : Settings) c,
      m.register (m.newCrate base output settings) = .ok () c ↔
        p.calls.forM Registration.perform
          (.new p.package (base.join (output.getD p.output)) settings) = .ok () c := by
  obtain ⟨handles, functions, hmanifest, hhandles, hfunctions⟩ := p.exists_manifest h
  refine ⟨_, hmanifest, fun base output settings c => ?_⟩
  have halike : Alike (Manifest.register {
      package := { name := p.package, output := p.output, imports := p.imports }
      crates := p.crates, enums := p.enums, handles, functions })
      (p.calls.forM Registration.perform) := by
    rw [Manifest.register, Declarations.calls]
    simp only [List.forM_eq_forM, List.forM_append, List.forM_map]
    refine .bind (.refl _) fun _ => .bind (.refl _) fun _ => .bind ?_ fun _ => ?_
    · refine .forM hhandles ?_
      rintro a ⟨t, traits⟩ ⟨hparse, rfl⟩
      exact Manifest.Handle.alike_call hparse a.traits
    · exact .forM hfunctions fun f d hfd => hfd.1.alike_call hfd.2
  exact halike _ () c

/-- A handle and a method of it, which borrows a struct with an enum for an argument. -/
theorem register_alike_calls_pool :
    let pool := BoundaryType.struct "Pool" []
    let cell := BoundaryType.sharedRef (.struct "Cell" [.enum "Mode" ["Fast", "Slow"]])
    let p : Declarations := {
      package := "native", imports := ["native::Pool"], enums := [("Mode", ["Fast", "Slow"])]
      handles := [(pool, [])]
      functions := [{ funcName := "put", owner := some pool, receiver := .ref
                      args := [("cell", cell)], ret := some (.primitive "u32") }] }
    ∃ m c, p.manifest = .ok m ∧
      m.functions.map (fun f => (f.owner, f.args.map Manifest.Argument.type, f.ret)) =
        [(some "Pool", ["&Cell<Mode>"], some "u32")] ∧
      m.register (m.newCrate {} none {}) = .ok () c ∧
      c.signatures.map Signature.name = ["Pool_free", "Pool_put"] := by
  intro pool cell p
  have hpool : BoundaryType.WellFormed p.enums pool :=
    .struct ⟨⟨"Pool", [], rfl, by decide⟩, by decide, by decide⟩ (by decide) nofun
  have hmode : BoundaryType.WellFormed p.enums (.enum "Mode" ["Fast", "Slow"]) :=
    .enum ⟨⟨"Mode", [], rfl, by decide⟩, by decide, by decide⟩ rfl
  have hcell : BoundaryType.WellFormed p.enums cell :=
    .sharedRef (.struct ⟨⟨"Cell", [], rfl, by decide⟩, by decide, by decide⟩ (by decide)
      (List.forall_mem_singleton.mpr hmode)) (by decide)
  have hdeclarable : p.Declarable := by
    refine ⟨?_, ?_, List.forall_mem_singleton.mpr nofun⟩
    · exact List.forall_mem_singleton.mpr hpool.exists_parse
    · refine List.forall_mem_singleton.mpr (List.forall_mem_cons.mpr ⟨hpool.exists_parse, ?_⟩)
      refine List.forall_mem_cons.mpr ⟨hcell.exists_parse, List.forall_mem_singleton.mpr ?_⟩
      exact (BoundaryType.WellFormed.primitive (by decide)).exists_parse
  obtain ⟨m, hm, halike⟩ := register_alike_calls p hdeclarable
  cases hm
  have hcalls : ∃ c, p.calls.forM Registration.perform
      (.new p.package (({} : Path).join p.output) {}) = .ok () c ∧
        c.signatures.map Signature.name = ["Pool_free", "Pool_put"] := by
    simp only [p, cell, pool]
    exact ⟨_, rfl, rfl⟩
  obtain ⟨c, hc, hnames⟩ := hcalls
  exact ⟨_, c, rfl, rfl, (halike {} none {} c).mpr hc, hnames⟩

end AbiBridge
