import AbiBridge.Journal
import AbiBridge.Manifest.Build
import AbiBridge.Proofs.Outcome

/-!
What a registration tells, how it fails, and what it leaves alone.

A registration leaves notes on the crate, which are told at its end. None of them is an error: what
goes wrong is said by the failure alone, and this is always a fault in what was to be registered.
The package, the folder and the settings of the crate are those with which it was made.

* `Crate.Quiet`: no note on the crate is an error;
* `Failure.OfRegistration`: the faults of types, descriptors and symbols;
* `Crate.SameFrame`: two crates for the same package, in the same folder and with the same settings;
* `Orderly`, `Orderly.bind`: an operation that leaves the crate quiet and in its frame, and fails
  with such a fault only;
* `Manifest.orderly_register`: the registrations of every manifest are of this sort.
-/

namespace AbiBridge

open Outcome

/-- No note on the crate is an error. -/
def Crate.Quiet (c : Crate) : Prop := ∀ n ∈ c.notes, n.level ≠ .error

/-- A crate for the same package as another one, in the same folder and with the same settings. -/
structure Crate.SameFrame (c c' : Crate) : Prop where
  package : c'.package = c.package
  folder : c'.folder = c.folder
  settings : c'.settings = c.settings

namespace Crate.SameFrame

lemma refl (c : Crate) : c.SameFrame c := ⟨rfl, rfl, rfl⟩

lemma trans {c c' c'' : Crate} (h : c.SameFrame c') (h' : c'.SameFrame c'') : c.SameFrame c'' :=
  ⟨h'.package.trans h.package, h'.folder.trans h.folder, h'.settings.trans h.settings⟩

end Crate.SameFrame

/-- A fault in what was to be registered. -/
def Failure.OfRegistration : Failure → Prop
  | typeText _ | type _ | descriptor _ | scope _ | registration _ => True
  | file _ | record _ | settingsDocument _ | settingsShape _ | encoding | manifestDocument ..
  | manifestRecord .. | destinationUnnamed | formatter .. => False

/-- An operation after which the crate is quiet, if it was quiet before, and in its frame, and which
fails with a fault in what was to be registered. -/
structure Orderly {α : Type} (x : Registering α) : Prop where
  quiet : Keeps Crate.Quiet x
  fails : FailsAs Failure.OfRegistration x
  framed : ∀ c₀, Keeps (Crate.SameFrame c₀) x

namespace Orderly

variable {α β : Type} {x : Registering α}

lemma pure (a : α) : Orderly (Pure.pure a : Registering α) := ⟨.pure a, .pure a, fun _ => .pure a⟩

lemma throw {f : Failure} (h : f.OfRegistration) : Orderly (MonadExcept.throw f : Registering α) :=
  ⟨.throw f, .throw h, fun _ => .throw f⟩

lemma ofExcept {x : Except Failure α} (h : FaultsAs Failure.OfRegistration x) :
    Orderly (MonadExcept.ofExcept x : Registering α) :=
  ⟨.ofExcept x, .ofExcept h, fun _ => .ofExcept x⟩

lemma bind {f : α → Registering β} (hx : Orderly x) (hf : ∀ a, Orderly (f a)) :
    Orderly (x >>= f) :=
  ⟨hx.quiet.bind fun a => (hf a).quiet, hx.fails.bind fun a => (hf a).fails,
    fun c₀ => (hx.framed c₀).bind fun a => (hf a).framed c₀⟩

lemma ite_bind {c : Prop} [Decidable c] {x : Registering Unit} {f : Unit → Registering α}
    (hx : Orderly x) (hf : ∀ u, Orderly (f u)) : Orderly (if c then x >>= f else f ()) :=
  ⟨.ite_bind hx.quiet fun u => (hf u).quiet, .ite_bind hx.fails fun u => (hf u).fails,
    fun c₀ => .ite_bind (hx.framed c₀) fun u => (hf u).framed c₀⟩

lemma discard (hx : Orderly x) : Orderly (Functor.discard x) := hx.bind fun _ => .pure ()

lemma forM {γ : Type} {f : γ → Registering PUnit} (h : ∀ a, Orderly (f a)) (l : List γ) :
    Orderly (l.forM f) := by
  induction l with
  | nil => exact .pure _
  | cons a l ih => exact (h a).bind fun _ => ih

/-- An operation that never fails and changes neither the notes nor the frame of the crate. -/
lemma of_ok {g : Crate → α × Crate} (hx : ∀ c, x c = .ok (g c).1 (g c).2)
    (hnotes : ∀ c, (g c).2.notes = c.notes) (hframe : ∀ c : Crate, c.SameFrame (g c).2) :
    Orderly x := by
  refine ⟨fun c hc => ?_, .of_ok fun c => ⟨_, _, hx c⟩, fun c₀ c hc => ?_⟩
  · rw [after_of_ok (hx c), Crate.Quiet, hnotes]
    exact hc
  · rw [after_of_ok (hx c)]
    exact hc.trans (hframe c)

end Orderly

namespace Registering

/-! ### Operations on a crate -/

lemma orderly_note {level : Level} (h : level ≠ .error) (text : String) :
    Orderly (note level text) := by
  refine ⟨fun c hc => ?_, .of_ok fun c => ⟨(), _, rfl⟩, fun c₀ c hc => hc.trans ⟨rfl, rfl, rfl⟩⟩
  exact List.forall_mem_append.mpr ⟨hc, List.forall_mem_singleton.mpr h⟩

lemma orderly_get : Orderly (get : Registering Crate) :=
  .of_ok (g := fun c => (c, c)) (fun _ => rfl) (fun _ => rfl) fun c => .refl c

lemma orderly_modify {g : Crate → Crate} (hnotes : ∀ c, (g c).notes = c.notes)
    (hframe : ∀ c : Crate, c.SameFrame (g c)) : Orderly (modify g : Registering Unit) :=
  .of_ok (g := fun c => ((), g c)) (fun _ => rfl) hnotes hframe

lemma orderly_claim (symbol origin : String) : Orderly (claim symbol origin) := by
  refine orderly_get.bind fun c => ?_
  split
  · exact .throw trivial
  · exact orderly_modify (fun _ => rfl) fun _ => ⟨rfl, rfl, rfl⟩

lemma orderly_emission {α : Type} (x : Emission α) : Orderly (emission x) := by
  refine ⟨fun c hc => ?_, fun c f c' h => ?_, fun c₀ c hc => ?_⟩
  · rw [after, emission]
    cases x c.emitter <;> exact hc
  · rw [emission] at h
    cases hx : x c.emitter with
    | ok a e =>
        rw [hx] at h
        cases h
    | error fault e =>
        rw [hx] at h
        cases h
        trivial
  · rw [after, emission]
    cases x c.emitter <;> exact hc.trans ⟨rfl, rfl, rfl⟩

lemma orderly_exportWrapper (w : Wrapper) (origin : String) : Orderly (exportWrapper w origin) :=
  (orderly_claim _ _).bind fun _ => orderly_emission _

lemma orderly_register (d : Descriptor) : Orderly (register d) := by
  unfold register
  split
  · exact .throw trivial
  · refine (orderly_exportWrapper _ _).bind fun _ => ?_
    refine Orderly.bind (orderly_modify (fun _ => rfl) fun _ => ⟨rfl, rfl, rfl⟩) fun _ => ?_
    exact Orderly.bind (orderly_note (by decide) _) fun _ => .pure _

lemma orderly_addMethod (owner : Option BoundaryType) (d : Descriptor) :
    Orderly (addMethod owner d) := by
  rw [addMethod.eq_def]
  split
  · split
    · exact .throw trivial
    · exact orderly_register _
  · exact .throw trivial

lemma orderly_addDestructor (name : String) (params : List BoundaryType) :
    Orderly (addDestructor name params) := by
  unfold addDestructor
  split
  · exact .throw trivial
  · refine (orderly_exportWrapper _ _).bind fun _ => ?_
    exact orderly_modify (fun _ => rfl) fun _ => ⟨rfl, rfl, rfl⟩

lemma orderly_addHandle (t : Option BoundaryType) (traits : List DerivedTrait) :
    Orderly (addHandle t traits) := by
  rw [addHandle.eq_def]
  split
  · refine (orderly_addDestructor _ _).bind fun _ => ?_
    refine .ite_bind (orderly_addMethod _ _).discard fun _ => ?_
    refine .ite_bind (orderly_addMethod _ _).discard fun _ => ?_
    refine .ite_bind (orderly_note (by decide) _) fun _ => ?_
    split
    · exact (orderly_addMethod _ _).discard
    · exact .pure ()
  · exact .throw trivial

lemma orderly_addDependency (name : String) (options : Table) :
    Orderly (addDependency name options) := by
  rw [addDependency]
  split
  · exact .throw trivial
  · exact orderly_modify (fun _ => rfl) fun _ => ⟨rfl, rfl, rfl⟩

lemma orderly_addImport (path : String) : Orderly (addImport path) :=
  orderly_modify (fun _ => rfl) fun _ => ⟨rfl, rfl, rfl⟩

end Registering

/-! ### Manifests -/

namespace Manifest

variable (enums : EnumTable)

lemma faultsAs_typeOf (text : String) : FaultsAs Failure.OfRegistration (typeOf enums text) :=
  .mapError fun _ => trivial

lemma faultsAs_structOf (role text : String) :
    FaultsAs Failure.OfRegistration (structOf enums role text) := by
  refine (faultsAs_typeOf enums text).bind fun t => ?_
  split
  · exact .pure _
  · exact .throw trivial

lemma Function.faultsAs_descriptor (f : Function) :
    FaultsAs Failure.OfRegistration (f.descriptor enums) := by
  refine FaultsAs.bind (.mapM (fun a => ?_) _) fun args => ?_
  · exact (faultsAs_typeOf enums a.type).bind fun t => .pure _
  · exact (FaultsAs.option_mapM (faultsAs_typeOf enums) _).bind fun ret => .pure _

lemma Function.faultsAs_ownerType (f : Function) :
    FaultsAs Failure.OfRegistration (f.ownerType enums) := by
  rw [ownerType]
  split
  · rw [map_eq_pure_bind]
    exact (faultsAs_structOf enums _ _).bind fun t => .pure _
  · split
    · exact .throw trivial
    · exact .pure _

lemma Function.orderly_register (f : Function) : Orderly (f.register enums) := by
  refine (Orderly.ofExcept (f.faultsAs_descriptor enums)).bind fun d => ?_
  refine (Orderly.ofExcept (f.faultsAs_ownerType enums)).bind fun owner => ?_
  cases owner with
  | none => exact (Registering.orderly_register _).discard
  | some t => exact (Registering.orderly_addMethod _ _).discard

lemma Handle.orderly_register (h : Handle) : Orderly (h.register enums) :=
  (Orderly.ofExcept (faultsAs_structOf enums _ _)).bind fun _ => Registering.orderly_addHandle _ _

/-- The registrations of a manifest tell of no error, and fail with a fault in what was to be
registered. -/
theorem orderly_register (m : Manifest) : Orderly m.register := by
  have hcrates (e : String × Table) := Registering.orderly_addDependency e.1 e.2
  refine Orderly.bind (.forM hcrates _) fun _ => ?_
  refine Orderly.bind (.forM Registering.orderly_addImport _) fun _ => ?_
  refine Orderly.bind (.forM (Handle.orderly_register m.enums) _) fun _ => ?_
  exact .forM (Function.orderly_register m.enums) _

end Manifest

end AbiBridge
