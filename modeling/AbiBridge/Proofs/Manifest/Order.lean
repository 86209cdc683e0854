import AbiBridge.Manifest.Build
import AbiBridge.Proofs.Boundary.RoundTrip
import AbiBridge.Proofs.Crate.Order

/-!
Entries of a manifest in any order.

* `Manifest.steps`: the registrations of the handles and the functions of a manifest;
* `Manifest.Reorders`: a manifest has the entries of another one in another order, and traits may be
  repeated in it;
* `reorders_rearranged`: the two succeed alike, and then make the same exports.
-/

namespace AbiBridge

open Outcome

namespace Manifest

/-! ### Entries as steps -/

section Entries

variable {imports : List String} (enums : EnumTable)

lemma Handle.keeps_register (h : Handle) : Keeps (Recorded imports) (h.register enums) :=
  (Keeps.ofExcept _).bind fun _ => Registering.keeps_addHandle _ _

lemma Function.keeps_register (f : Function) : Keeps (Recorded imports) (f.register enums) := by
  refine (Keeps.ofExcept _).bind fun d => (Keeps.ofExcept _).bind fun owner => ?_
  cases owner with
  | none => exact (Registering.keeps_register _).discard
  | some t => exact (Registering.keeps_addMethod _ _).discard

lemma Handle.settled_register (h : Handle) : Settled (h.register enums) :=
  .ofExcept_bind fun _ _ => .addHandle _ _

lemma Function.settled_register (f : Function) : Settled (f.register enums) := by
  refine .ofExcept_bind fun d _ => .ofExcept_bind fun owner _ => ?_
  cases owner with
  | none => exact .register _
  | some t => exact .addMethod _ _

end Entries

/-- What is registered for a handle depends on which traits there are. -/
lemma addHandle_congr (t : Option BoundaryType) {traits traits' : List DerivedTrait}
    (h : ∀ r, r ∈ traits ↔ r ∈ traits') :
    Registering.addHandle t traits = Registering.addHandle t traits' := by
  have hcontains : ∀ r, traits.contains r = traits'.contains r := fun r => by
    rw [Bool.eq_iff_iff, List.contains_iff_mem, List.contains_iff_mem, h]
  rw [Registering.addHandle.eq_def, Registering.addHandle.eq_def]
  simp only [hcontains]

variable (m : Manifest)

/-- The registrations of the handles and the functions. -/
def steps : List (Registering Unit) :=
  m.handles.map (Handle.register m.enums) ++ m.functions.map (Function.register m.enums)

/-- What comes before them: the crates and the imports. -/
def front : Registering Unit := do
  m.crates.forM fun (name, options) => Registering.addDependency name options
  m.package.imports.forM Registering.addImport

lemma register_eq : m.register = m.front >>= fun _ => m.steps.forM id := by
  rw [register, front, steps, bind_assoc]
  simp only [List.forM_eq_forM, List.forM_append, List.forM_map, id]

/-- A dependency goes into no record of the exports. -/
lemma keeps_addDependency {imports : List String} (name : String) (options : Table) :
    Keeps (Records [] imports) (Registering.addDependency name options) := by
  rw [Registering.addDependency]
  split
  · exact .throw _
  · exact fun c h => h.setDependencies _

/-- Paths that are brought into scope come behind the others. -/
lemma records_forM_addImport {imports : List String} {c : Crate} (h : Records [] imports c)
    (paths : List String) :
    Records [] (imports ++ paths) (after (paths.forM Registering.addImport) c) := by
  induction paths generalizing imports c with
  | nil =>
      rw [List.append_nil]
      exact h
  | cons path paths ih =>
      rw [List.append_cons]
      exact ih (h.addImport path)

/-- Nothing is exported before the entries are registered. -/
lemma records_front {base : Path} {output : Option Path} {settings : Settings} {c : Crate}
    (h : m.front (m.newCrate base output settings) = .ok () c) :
    Records [] m.package.imports c := by
  have hnew : Records [] [] (m.newCrate base output settings) := records_new _ _ _
  have hcrates := Keeps.forM (l := m.crates)
    (fun crate _ => keeps_addDependency crate.1 crate.2) _ hnew
  rw [front] at h
  cases hrun : (m.crates.forM fun crate => Registering.addDependency crate.1 crate.2)
      (m.newCrate base output settings) with
  | error failure c₁ =>
      rw [run_bind_of_error hrun] at h
      cases h
  | ok _ c₁ =>
      rw [run_bind hrun] at h
      rw [after_of_ok hrun] at hcrates
      have himports := records_forM_addImport hcrates m.package.imports
      rwa [after_of_ok h] at himports

lemma keeps_steps {imports : List String} :
    ∀ step ∈ m.steps, Keeps (Recorded imports) step := by
  refine List.forall_mem_append.mpr ⟨?_, ?_⟩
  · exact List.forall_mem_map.mpr fun h _ => h.keeps_register m.enums
  · exact List.forall_mem_map.mpr fun f _ => f.keeps_register m.enums

lemma settled_steps : ∀ step ∈ m.steps, Settled step := by
  refine List.forall_mem_append.mpr ⟨?_, ?_⟩
  · exact List.forall_mem_map.mpr fun h _ => h.settled_register m.enums
  · exact List.forall_mem_map.mpr fun f _ => f.settled_register m.enums

/-! ### Another order -/

/-- The same struct with the same traits, in any order and any number. -/
def Handle.Similar (h h' : Handle) : Prop := h.name = h'.name ∧ ∀ r, r ∈ h.traits ↔ r ∈ h'.traits

/-- The same manifest, but for the order of the handles, of their traits and of the functions. -/
structure Reorders (m m' : Manifest) : Prop where
  package : m'.package = m.package
  crates : m'.crates = m.crates
  enums : m'.enums = m.enums
  handles : ∃ handles, m.handles.Perm handles ∧ List.Forall₂ Handle.Similar handles m'.handles
  functions : m.functions.Perm m'.functions

namespace Reorders

variable {m m' : Manifest}

/-- The same steps are taken in another order. -/
lemma steps_perm (h : Reorders m m') : m.steps.Perm m'.steps := by
  obtain ⟨handles, hperm, hsimilar⟩ := h.handles
  have hsteps : handles.map (Handle.register m.enums) =
      m'.handles.map (Handle.register m.enums) := by
    rw [← List.forall₂_eq_eq_eq, List.forall₂_map_left_iff, List.forall₂_map_right_iff]
    refine hsimilar.imp fun a b hab => ?_
    rw [Handle.register, Handle.register, hab.1]
    exact congrArg _ (funext fun t => addHandle_congr _ hab.2)
  rw [steps, steps, h.enums, ← hsteps]
  exact (hperm.map _).append (h.functions.map _)

lemma front_eq (h : Reorders m m') : m'.front = m.front := by
  rw [front, front, h.crates, h.package]

lemma newCrate_eq (h : Reorders m m') (base : Path) (output : Option Path) (settings : Settings) :
    m'.newCrate base output settings = m.newCrate base output settings := by
  rw [newCrate, newCrate, outputFolder, outputFolder, h.package]

end Reorders

/-- **The order of the entries does not matter.** A manifest and another one with the same handles
and functions in another order, in which traits may be repeated, are registered without a failure or
neither of them is; and then the two crates have the same symbols, each with the same signature and
the same wrapper, the same imports and dependencies, and libraries that differ in the order of the
wrappers. -/
theorem reorders_rearranged {m m' : Manifest} (h : Reorders m m') (base : Path)
    (output : Option Path) (settings : Settings) :
    ((∃ c, m.register (m.newCrate base output settings) = .ok () c) ↔
      ∃ c', m'.register (m'.newCrate base output settings) = .ok () c') ∧
    ∀ c c', m.register (m.newCrate base output settings) = .ok () c →
      m'.register (m'.newCrate base output settings) = .ok () c' → Rearranged c c' := by
  rw [register_eq, register_eq, h.front_eq, h.newCrate_eq]
  cases hfront : m.front (m.newCrate base output settings) with
  | error failure c₀ =>
      rw [run_bind_of_error hfront, run_bind_of_error hfront]
      exact ⟨Iff.rfl, nofun⟩
  | ok _ c₀ =>
      rw [run_bind hfront, run_bind hfront]
      have hempty := m.records_front hfront
      refine ⟨⟨?_, ?_⟩, ?_⟩
      · rintro ⟨c, hok⟩
        obtain ⟨c', hok', -⟩ :=
          exists_rearranged h.steps_perm m.settled_steps m.keeps_steps hempty hok
        exact ⟨c', hok'⟩
      · rintro ⟨c', hok'⟩
        obtain ⟨c, hok, -⟩ :=
          exists_rearranged h.steps_perm.symm m'.settled_steps m'.keeps_steps hempty hok'
        exact ⟨c, hok⟩
      · intro c c' hok hok'
        obtain ⟨c'', hok'', hrearranged⟩ :=
          exists_rearranged h.steps_perm m.settled_steps m.keeps_steps hempty hok
        cases hok'.symm.trans hok''
        exact hrearranged

/-- Two handles and two functions in either order, with a trait that is given twice. -/
theorem reorders_rearranged_pool :
    let m : Manifest := {
      package := { name := "native" }, handles := [⟨"Pool", [.clone]⟩, ⟨"Cell", []⟩]
      functions := [{ name := "first" }, { name := "second" }] }
    let m' : Manifest := {
      package := { name := "native" }, handles := [⟨"Cell", []⟩, ⟨"Pool", [.clone, .clone]⟩]
      functions := [{ name := "second" }, { name := "first" }] }
    ∃ c c', m.register (m.newCrate {} none {}) = .ok () c ∧
      m'.register (m'.newCrate {} none {}) = .ok () c' ∧ Rearranged c c' ∧
      c.signatures.map Signature.name =
        ["Pool_free", "Pool_clone", "Cell_free", "first", "second"] := by
  intro m m'
  have hreorders : Reorders m m' := by
    refine ⟨rfl, rfl, rfl, ⟨_, .swap _ _ _, ?_⟩, .swap _ _ _⟩
    exact .cons ⟨rfl, fun _ => Iff.rfl⟩ (.cons ⟨rfl, fun r => by simp⟩ .nil)
  have hregister : ∀ name traits, Name.isWord name.toList = true → name ≠ "Vec" →
      name ∉ BoundaryType.primitiveNames → Handle.register [] ⟨name, traits⟩ =
        Registering.addHandle (some (.struct name [])) traits := by
    intro name traits hword hrun hscalar
    have hreads : BoundaryType.Reads [] name (.struct name []) :=
      ⟨BoundaryType.pathTokens name [], .word hword, .path (.struct [] hrun hscalar rfl)⟩
    rw [Handle.register, structOf, typeOf, hreads.parse_eq_ok]
    rfl
  have hruns : m.register.run' (m.newCrate {} none {}) = some () ∧
      (after m.register (m.newCrate {} none {})).signatures.map Signature.name =
        ["Pool_free", "Pool_clone", "Cell_free", "first", "second"] := by
    simp only [m, register, List.forM_eq_forM, List.forM_cons, List.forM_nil]
    rw [hregister "Pool" _ (by decide) (by decide) (by decide),
      hregister "Cell" _ (by decide) (by decide) (by decide)]
    decide +kernel
  obtain ⟨hrun, hnames⟩ := hruns
  have hok := eq_ok_of_run'_eq_some hrun
  obtain ⟨halike, hrearranged⟩ := reorders_rearranged hreorders {} none {}
  obtain ⟨c', hok'⟩ := halike.mp ⟨_, hok⟩
  exact ⟨_, c', hok, hok', hrearranged _ c' hok hok', hnames⟩

end Manifest

end AbiBridge
