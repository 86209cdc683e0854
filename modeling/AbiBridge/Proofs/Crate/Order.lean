import AbiBridge.Proofs.Crate.HandleRegistration
import AbiBridge.Proofs.Crate.Library
import Mathlib.Data.List.Perm.Basic

/-!
Steps on a crate in any order.

Whether a step succeeds is decided by the symbols that were claimed before it, and these depend on
the order of the steps. Whether all of them succeed does not: each has to have something to export,
and no symbol may be exported twice.

* `Exports`: a step makes given exports, wherever it is taken;
* `Settled`: a step makes the same exports on every crate, or it fails on every crate;
* `exists_ok_iff`: settled steps succeed on an empty crate exactly if their symbols are distinct;
* `Rearranged`: two crates have the same exports in another order;
* `exists_rearranged`: settled steps succeed in every order, and with the same exports.
-/

namespace AbiBridge

open Emitter Outcome

/-! ### Records that were extended -/

/-- Exports that were made behind others are on record with them. -/
lemma Records.extend {exports exports' : List Exported} {imports : List String} {c c' : Crate}
    (h : Records exports imports c) (hgrown : Extends c exports' c')
    (hnodup : (c'.symbols.map Prod.fst).Nodup) : Records (exports ++ exports') imports c' where
  signatures := by rw [hgrown.signatures, h.signatures, List.map_append]
  symbols := by rw [hgrown.symbols, h.symbols, List.map_append]
  nodup := by
    rw [hgrown.map_fst_symbols, h.symbols, List.map_map] at hnodup
    rw [List.map_append]
    exact hnodup
  descriptors := by rw [hgrown.descriptors, h.descriptors, List.filterMap_append]
  imports := hgrown.imports.trans h.imports
  closed := hgrown.frames.trans h.closed
  lines := by
    obtain ⟨blocks, hblocks, hold⟩ := h.lines
    obtain ⟨blocks', hblocks', hnew⟩ := hgrown.lines
    refine ⟨blocks ++ blocks', List.rel_append hblocks (hblocks'.imp fun x block hx => ?_), ?_⟩
    · obtain ⟨body, hbody⟩ := x.isBlock
      exact ⟨body, hbody, hx.unique (writtenAs_of_appends hbody)⟩
    · rw [hnew, hold, List.flatMap_append]
      congr 2
      exact funext fun block => placed_of_frames_eq_nil h.closed block

/-! ### Steps -/

/-- Wherever it is taken, the step makes the exports, up to the first one whose symbol is taken. -/
def Exports (step : Registering Unit) (exports : List Exported) : Prop :=
  ∀ c, Makes c exports (step c)

/-- A step that makes the same exports on every crate, or fails on every crate. -/
def Settled (step : Registering Unit) : Prop :=
  (∃ exports, Exports step exports) ∨ ∀ c, ∃ failure c', step c = .error failure c'

namespace Settled

lemma of_fail {step : Registering Unit} (h : ∀ c, ∃ failure c', step c = .error failure c') :
    Settled step := Or.inr h

/-- A check that does not look at the crate comes first. -/
lemma ofExcept_bind {α : Type} {x : Except Failure α} {f : α → Registering Unit}
    (h : ∀ a, x = .ok a → Settled (f a)) : Settled (MonadExcept.ofExcept x >>= f) := by
  cases x with
  | error failure => exact .of_fail fun c => ⟨failure, c, rfl⟩
  | ok a => exact h a rfl

lemma register (d : Descriptor) : Settled (discard (Registering.register d)) := by
  cases hcompile : d.compile with
  | error fault =>
      refine .of_fail fun c => ⟨.descriptor fault, c, ?_⟩
      rw [discard_eq_bind, run_bind_of_error (Registering.register_of_error hcompile c)]
  | ok w =>
      exact Or.inl ⟨_, fun c =>
        .of_exportOutcome (Registering.exportOutcome_register hcompile c).discard⟩

lemma addMethod (owner : Option BoundaryType) (d : Descriptor) :
    Settled (discard (Registering.addMethod owner d)) := by
  rw [Registering.addMethod.eq_def]
  split
  · split
    · exact .of_fail fun c => ⟨_, c, rfl⟩
    · exact register _
  · exact .of_fail fun c => ⟨_, c, rfl⟩

/-- A handle to a struct. -/
lemma addHandle_struct (name : String) (params : List BoundaryType) (traits : List DerivedTrait) :
    Settled (Registering.addHandle (some (.struct name params)) traits) := by
  cases hcompile : compileDestructor (some (.struct name params)) none with
  | error fault =>
      refine .of_fail fun c => ⟨.descriptor fault, c, ?_⟩
      rw [Registering.addHandle,
        run_bind_of_error (Registering.addDestructor_of_error hcompile c)]
  | ok w =>
      have hnamed := exists_compileDestructor_iff.mp ⟨w, hcompile⟩
      obtain ⟨functions, rest, -, heq, hrest⟩ := Registering.exists_makes_functions hnamed traits
      rw [heq]
      refine Or.inl ⟨[⟨.destructor name params, w, hcompile⟩] ++ functions, fun c => ?_⟩
      have hdestructor := Registering.exportOutcome_addDestructor hcompile c
      exact (Makes.of_exportOutcome hdestructor).bind hrest

lemma addHandle (t : Option BoundaryType) (traits : List DerivedTrait) :
    Settled (Registering.addHandle t traits) := by
  cases t with
  | none => exact .of_fail fun c => ⟨_, c, rfl⟩
  | some t =>
      cases t with
      | struct name params => exact addHandle_struct name params traits
      | _ => exact .of_fail fun c => ⟨_, c, rfl⟩

end Settled

section Steps

variable {steps steps' : List (Registering Unit)} {exports : List (List Exported)}
  {imports : List String} {c c' : Crate}

/-- Settled steps that succeeded once have something to export. -/
lemma exists_exports_of_ok (hsettled : ∀ step ∈ steps, Settled step)
    (h : steps.forM id c = .ok () c') : ∃ exports, List.Forall₂ Exports steps exports := by
  induction steps generalizing c with
  | nil => exact ⟨[], .nil⟩
  | cons step steps ih =>
      obtain ⟨hfirst, hrest⟩ := List.forall_mem_cons.mp hsettled
      have h : (step >>= fun _ => steps.forM id) c = .ok () c' := h
      cases hrun : step c with
      | error failure c₁ =>
          rw [run_bind_of_error hrun] at h
          cases h
      | ok _ c₁ =>
          rw [run_bind hrun] at h
          obtain ⟨rest, hexports⟩ := ih hrest h
          rcases hfirst with ⟨first, hmakes⟩ | hfails
          · exact ⟨first :: rest, .cons hmakes hexports⟩
          · obtain ⟨failure, c₂, hfail⟩ := hfails c
            rw [hfail] at hrun
            cases hrun

lemma makes_forM (h : List.Forall₂ Exports steps exports) (c : Crate) :
    Makes c exports.flatten (steps.forM id c) := by
  induction h generalizing c with
  | nil => exact .nil c
  | cons hstep _ ih =>
      rw [List.flatten_cons]
      exact (hstep c).bind ih

/-- Where steps succeed on an empty crate, their exports are on record. -/
lemma records_of_ok (h : List.Forall₂ Exports steps exports)
    (hkeeps : ∀ step ∈ steps, Keeps (Recorded imports) step) (hempty : Records [] imports c)
    (hok : steps.forM id c = .ok () c') :
    Records exports.flatten imports c' ∧ c'.dependencies = c.dependencies := by
  have hmakes := makes_forM h c
  obtain ⟨recorded, hrecorded⟩ : Recorded imports c' := by
    have hend : Recorded imports (after (steps.forM id) c) := Keeps.forM hkeeps c ⟨[], hempty⟩
    rwa [after_of_ok hok] at hend
  have hnodup : (c'.symbols.map Prod.fst).Nodup := by
    rw [hrecorded.symbols, List.map_map]
    exact hrecorded.nodup
  rw [hok] at hmakes
  cases hmakes with
  | all _ hgrown => exact ⟨hempty.extend hgrown hnodup, hgrown.dependencies⟩

/-- Steps with something to export succeed on an empty crate exactly if no symbol is exported
twice. -/
lemma exists_ok_iff (h : List.Forall₂ Exports steps exports)
    (hkeeps : ∀ step ∈ steps, Keeps (Recorded imports) step) (hempty : Records [] imports c) :
    (∃ c', steps.forM id c = .ok () c') ↔ (exports.flatten.map Exported.symbol).Nodup := by
  constructor
  · rintro ⟨c', hok⟩
    exact (records_of_ok h hkeeps hempty hok).1.nodup
  · intro hnodup
    have hmakes := makes_forM h c
    generalize steps.forM id c = result at hmakes
    cases hmakes with
    | @all c' _ _ => exact ⟨c', rfl⟩
    | @upTo front x back previous c' hsplit _ hgrown hlookup =>
        -- the symbol was not there at first, so it is one of those that were exported before
        rw [hsplit, List.map_append, List.map_cons, List.nodup_middle, List.nodup_cons,
          List.mem_append, not_or] at hnodup
        have hold := hgrown.lookup_eq_some hlookup hnodup.1.1
        rw [hempty.symbols] at hold
        cases hold

end Steps

/-! ### What is rearranged -/

/-- The text of the wrapper of an export. -/
def Exported.text (x : Exported) : String :=
  match Statement.sourceOf x.wrapper.plan with
  | .ok s => s
  | .error _ => ""

/-- The library of a crate is the texts of the exports, each as it is written alone, behind what is
brought into scope. -/
structure Crate.MadeOf (c : Crate) (uses : String) (exports : List Exported) : Prop where
  symbols : c.symbols.map Prod.fst = exports.map Exported.symbol
  signatures : c.signatures = exports.map fun x => x.wrapper.signature
  texts : ∀ x ∈ exports, Statement.sourceOf x.wrapper.plan = .ok x.text
  library : c.librarySource = uses ++ "\n".intercalate (exports.map Exported.text)

/-- Two crates with the same exports in another order. -/
structure Rearranged (c c' : Crate) : Prop where
  /-- The same symbols are claimed, each once. -/
  symbols : c.symbols.Perm c'.symbols
  nodup : (c.symbols.map Prod.fst).Nodup
  signatures : c.signatures.Perm c'.signatures
  /-- The libraries begin alike, and then have the same wrappers. -/
  library : ∃ uses exports exports', exports.Perm exports' ∧ c.MadeOf uses exports ∧
    c'.MadeOf uses exports'
  dependencies : c'.dependencies = c.dependencies
  imports : c'.imports = c.imports

/-- What stands in a library before its exports. -/
def usesText (imports : List String) (bare : Bool) : String :=
  String.join (imports.map fun path => "use " ++ path ++ ";\n") ++
    if imports = [] ∨ bare then "" else "\n"

lemma Records.madeOf {exports : List Exported} {imports : List String} {c : Crate}
    (h : Records exports imports c) : c.MadeOf (usesText imports exports.isEmpty) exports := by
  obtain ⟨sources, hsources, -, hlibrary, -⟩ := h.consistent.source
  have htexts : List.Forall₂ (fun x s => x.text = s) exports sources := by
    refine hsources.imp fun x s hs => ?_
    rw [Exported.text, hs]
  have hall : exports.map Exported.text = sources := by
    rwa [← List.forall₂_eq_eq_eq, List.forall₂_map_left_iff]
  constructor
  case symbols =>
    rw [h.symbols, List.map_map]
    rfl
  case signatures => exact h.signatures
  case texts =>
    rw [← hall, List.forall₂_map_right_iff, List.forall₂_same] at hsources
    exact hsources
  case library => simp only [hlibrary, hall, usesText, List.isEmpty_iff]

lemma rearranged_of_records {exports exports' : List Exported} {imports : List String}
    {c c' : Crate} (hperm : exports.Perm exports') (h : Records exports imports c)
    (h' : Records exports' imports c') (hdependencies : c'.dependencies = c.dependencies) :
    Rearranged c c' where
  symbols := by
    rw [h.symbols, h'.symbols]
    exact hperm.map _
  nodup := h.consistent.claimed ▸ h.consistent.nodup_names
  signatures := by
    rw [h.signatures, h'.signatures]
    exact hperm.map _
  library := by
    have hbare : exports'.isEmpty = exports.isEmpty := by
      rw [Bool.eq_iff_iff, List.isEmpty_iff, List.isEmpty_iff, ← List.perm_nil, ← List.perm_nil,
        hperm.congr_left]
    exact ⟨_, exports, exports', hperm, h.madeOf, hbare ▸ h'.madeOf⟩
  dependencies := hdependencies
  imports := h'.imports.trans h.imports.symm

/-- Settled steps that succeed on an empty crate succeed in every order, and make the same
exports. -/
lemma exists_rearranged {steps steps' : List (Registering Unit)} {imports : List String}
    {c c' : Crate} (hperm : steps.Perm steps') (hsettled : ∀ step ∈ steps, Settled step)
    (hkeeps : ∀ step ∈ steps, Keeps (Recorded imports) step) (hempty : Records [] imports c)
    (hok : steps.forM id c = .ok () c') :
    ∃ c'', steps'.forM id c = .ok () c'' ∧ Rearranged c' c'' := by
  obtain ⟨exports, hexports⟩ := exists_exports_of_ok hsettled hok
  obtain ⟨exports', hexports', hperm'⟩ := List.perm_comp_forall₂ hperm.symm hexports
  have hflatten : exports.flatten.Perm exports'.flatten := hperm'.symm.flatten
  have hkeeps' : ∀ step ∈ steps', Keeps (Recorded imports) step :=
    fun step hstep => hkeeps step (hperm.mem_iff.mpr hstep)
  obtain ⟨hrecords, hsame⟩ := records_of_ok hexports hkeeps hempty hok
  have hnodup : (exports'.flatten.map Exported.symbol).Nodup :=
    (hflatten.map Exported.symbol).nodup_iff.mp hrecords.nodup
  obtain ⟨c'', hok'⟩ := (exists_ok_iff hexports' hkeeps' hempty).mpr hnodup
  obtain ⟨hrecords', hsame'⟩ := records_of_ok hexports' hkeeps' hempty hok'
  exact ⟨c'', hok', rearranged_of_records hflatten hrecords hrecords' (hsame'.trans hsame.symm)⟩

end AbiBridge
