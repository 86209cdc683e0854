import AbiBridge.Proofs.Crate.Surface
import AbiBridge.Proofs.Manifest.Order

/-!
The surface of a manifest.

Where the crate of a manifest is to lie and which settings it has is of no consequence for what it
exports.

* `Blind`: operations that succeed on every crate once they succeed on one;
* `Manifest.keeps_scalarResults`: what is returned for a type that was read is a scalar;
* `Manifest.exists_surfaces`: if the registrations are made on one new crate, they are made on all
  of them, and with the same entries.
-/

namespace AbiBridge

open Outcome

/-! ### Operations that do not look at the crate -/

/-- Whether the operation succeeds does not depend on the crate. -/
def Blind (x : Registering Unit) : Prop :=
  ∀ c c', x c = .ok () c' → ∀ d, ∃ d', x d = .ok () d'

namespace Blind

variable {x : Registering Unit}

lemma pure : Blind (Pure.pure ()) := fun _ _ _ d => ⟨d, rfl⟩

lemma bind {f : Unit → Registering Unit} (hx : Blind x) (hf : Blind (f ())) : Blind (x >>= f) := by
  intro c c' h d
  cases hrun : x c with
  | error failure c₁ =>
      rw [run_bind_of_error hrun] at h
      cases h
  | ok _ c₁ =>
      rw [run_bind hrun] at h
      obtain ⟨d₁, hd⟩ := hx c c₁ hrun d
      obtain ⟨d', hd'⟩ := hf c₁ c' h d₁
      exact ⟨d', by rw [run_bind hd, hd']⟩

lemma forM {γ : Type} {f : γ → Registering Unit} (h : ∀ a, Blind (f a)) (l : List γ) :
    Blind (l.forM f) := by
  induction l with
  | nil => exact .pure
  | cons a l ih => exact (h a).bind ih

end Blind

lemma Registering.blind_addDependency (name : String) (options : Table) :
    Blind (addDependency name options) := by
  intro c c' h d
  rw [addDependency] at h ⊢
  cases hentry : dependencyEntry name options with
  | error fault =>
      rw [hentry] at h
      cases h
  | ok entry => exact ⟨_, rfl⟩

lemma Registering.blind_addImport (path : String) : Blind (addImport path) :=
  fun _ _ _ _ => ⟨_, rfl⟩

/-! ### Scalars of types that are read -/

/-- A scalar that is read is one of the native language. -/
lemma BoundaryType.mem_primitiveNames_of_parse {enums : EnumTable} {text name : String}
    (h : parse enums text = .ok (.primitive name)) : name ∈ primitiveNames := by
  have hdenotes : ∀ {path params}, Denotes enums path params (.primitive name) →
      name ∈ primitiveNames := by
    intro path params hdenoted
    cases hdenoted with
    | primitive hscalar => exact hscalar
  obtain ⟨ts, -, hderived⟩ := parse_eq_ok_iff.mp h
  cases hderived with
  | path hdenoted => exact hdenotes hdenoted
  | applied _ hdenoted => exact hdenotes hdenoted

namespace Manifest

lemma Function.scalarResult_descriptor {enums : EnumTable} {f : Function} {d : Descriptor}
    (h : f.descriptor enums = .ok d) : d.ScalarResult := by
  obtain ⟨args, -, h⟩ := bind_eq_ok.mp h
  obtain ⟨ret, hret, h⟩ := bind_eq_ok.mp h
  cases h
  intro name hname
  have hname : ret = some (.primitive name) := hname
  rw [option_mapM_eq_ok, hname] at hret
  cases htext : nonempty f.ret with
  | none =>
      rw [htext] at hret
      cases hret
  | some text =>
      rw [htext] at hret
      cases hret with
      | some hread => exact BoundaryType.mem_primitiveNames_of_parse (mapError_eq_ok.mp hread)

section Entries

variable (enums : EnumTable)

lemma Function.keeps_scalarResults (f : Function) :
    Keeps Crate.ScalarResults (f.register enums) := by
  refine Keeps.ofExcept_bind fun d hdescriptor => .ofExcept_bind fun owner _ => ?_
  have hd := scalarResult_descriptor hdescriptor
  cases owner with
  | none =>
      -- the result is that of the descriptor without owner and receiver
      have hown : Descriptor.ScalarResult { d with owner := none, receiver := .none } := hd
      exact (Registering.keeps_scalarResults_register hown).discard
  | some t => exact (Registering.keeps_scalarResults_addMethod _ hd).discard

lemma Handle.keeps_scalarResults (h : Handle) : Keeps Crate.ScalarResults (h.register enums) :=
  (Keeps.ofExcept _).bind fun _ => Registering.keeps_scalarResults_addHandle _ _

end Entries

variable (m : Manifest)

lemma blind_front : Blind m.front :=
  (Blind.forM (fun _ => Registering.blind_addDependency _ _) _).bind
    (.forM Registering.blind_addImport _)

/-- The functions that are declared return scalars themselves, or nothing. -/
lemma keeps_scalarResults : Keeps Crate.ScalarResults m.register := by
  refine Keeps.bind (.forM fun _ _ => Registering.keeps_scalarResults_addDependency _ _) fun _ => ?_
  refine Keeps.bind (.forM fun _ _ c hc => hc) fun _ => ?_
  exact Keeps.bind (.forM fun h _ => h.keeps_scalarResults m.enums) fun _ =>
    .forM fun f _ => f.keeps_scalarResults m.enums

variable {m}

/-- **The same surface everywhere.** A manifest whose registrations are made on one new crate has
its entries on every new crate, wherever it is to lie and whatever its settings are. -/
theorem exists_surfaces {base : Path} {output : Option Path} {settings : Settings} {c : Crate}
    (h : m.register (m.newCrate base output settings) = .ok () c) :
    ∃ entries, ∀ base' output' settings', ∃ c',
      m.register (m.newCrate base' output' settings') = .ok () c' ∧ c'.emitter.frames = [] ∧
        c'.Surfaces entries := by
  rw [register_eq] at h ⊢
  cases hfront : m.front (m.newCrate base output settings) with
  | error failure c₀ =>
      rw [run_bind_of_error hfront] at h
      cases h
  | ok _ c₀ =>
      rw [run_bind hfront] at h
      obtain ⟨exports, hexports⟩ := exists_exports_of_ok m.settled_steps h
      obtain ⟨hrecords, -⟩ := records_of_ok hexports m.keeps_steps (m.records_front hfront) h
      refine ⟨exports.flatten.map fun x => .ofSignature x.wrapper.signature,
        fun base' output' settings' => ?_⟩
      obtain ⟨c₁, hfront'⟩ := m.blind_front _ _ hfront (m.newCrate base' output' settings')
      have hempty := m.records_front hfront'
      obtain ⟨c', hok⟩ := (exists_ok_iff hexports m.keeps_steps hempty).mpr hrecords.nodup
      obtain ⟨hrecords', -⟩ := records_of_ok hexports m.keeps_steps hempty hok
      have hregister : (m.front >>= fun _ => m.steps.forM id)
          (m.newCrate base' output' settings') = .ok () c' := by
        rw [run_bind hfront', hok]
      have hresults : c'.ScalarResults := by
        have hkept := m.keeps_scalarResults (m.newCrate base' output' settings')
          fun g hg => absurd hg List.not_mem_nil
        rwa [register_eq, after_of_ok hregister] at hkept
      exact ⟨c', hregister, hrecords'.closed, hrecords'.surfaces hresults⟩

end Manifest

end AbiBridge
