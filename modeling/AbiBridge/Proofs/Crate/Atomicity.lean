import AbiBridge.Proofs.Crate.Registration

/-!
Registrations, whole or not at all.

A registration claims a symbol before it writes its wrapper, so it leaves nothing half done only
because a wrapper that was compiled is always written, whatever scopes are open in the emitter.

* `Extends`: a crate has the records of another one, with those of some exports behind them;
* `ExportOutcome`: an export goes into all the records, or its symbol is taken and nothing happens;
* `registering_atomic`: functions and dependencies are registered whole or not at all.
-/

namespace AbiBridge

open Emitter Outcome

/-! ### Records that grow -/

/-- The records of `c'` are those of `c` with those of the exports behind them, and the same scopes
are open. -/
structure Extends (c : Crate) (exports : List Exported) (c' : Crate) : Prop where
  symbols : c'.symbols = c.symbols ++ exports.map fun x => (x.symbol, x.source.origin)
  signatures : c'.signatures = c.signatures ++ exports.map fun x => x.wrapper.signature
  descriptors : c'.descriptors = c.descriptors ++ exports.filterMap fun x => x.source.descriptor?
  /-- Every wrapper is written where it would be written alone. -/
  lines : ∃ blocks, List.Forall₂ (fun x block => WrittenAs x.wrapper block) exports blocks ∧
    c'.emitter.lines = c.emitter.lines ++ blocks.flatMap c.emitter.placed
  frames : c'.emitter.frames = c.emitter.frames
  dependencies : c'.dependencies = c.dependencies
  imports : c'.imports = c.imports

namespace Extends

variable {c c' c'' : Crate} {exports exports' : List Exported}

lemma refl (c : Crate) : Extends c [] c where
  symbols := (List.append_nil _).symm
  signatures := (List.append_nil _).symm
  descriptors := (List.append_nil _).symm
  lines := ⟨[], .nil, (List.append_nil _).symm⟩
  frames := rfl
  dependencies := rfl
  imports := rfl

lemma trans (h : Extends c exports c') (h' : Extends c' exports' c'') :
    Extends c (exports ++ exports') c'' where
  symbols := by rw [h'.symbols, h.symbols, List.map_append, List.append_assoc]
  signatures := by rw [h'.signatures, h.signatures, List.map_append, List.append_assoc]
  descriptors := by rw [h'.descriptors, h.descriptors, List.filterMap_append, List.append_assoc]
  lines := by
    obtain ⟨blocks, hblocks, hlines⟩ := h.lines
    obtain ⟨blocks', hblocks', hlines'⟩ := h'.lines
    -- where a block is placed depends on the open scopes alone
    have hplaced : c'.emitter.placed = c.emitter.placed := by
      funext block
      rw [placed, placed, depth_eq, depth_eq, h.frames]
    refine ⟨blocks ++ blocks', List.rel_append hblocks hblocks', ?_⟩
    rw [hlines', hlines, hplaced, List.flatMap_append, List.append_assoc]
  frames := h'.frames.trans h.frames
  dependencies := h'.dependencies.trans h.dependencies
  imports := h'.imports.trans h.imports

/-- What is told about a registration is no record of it. -/
lemma note (h : Extends c exports c') (notes : List Note) :
    Extends c exports { c' with notes := notes } :=
  ⟨h.symbols, h.signatures, h.descriptors, h.lines, h.frames, h.dependencies, h.imports⟩

lemma map_fst_symbols (h : Extends c exports c') :
    c'.symbols.map Prod.fst = c.symbols.map Prod.fst ++ exports.map Exported.symbol := by
  rw [h.symbols, List.map_append, List.map_map]
  rfl

/-- What is free behind the exports was free before them. -/
lemma notMem_symbols (h : Extends c exports c') {n : String}
    (hn : n ∉ c'.symbols.map Prod.fst) : n ∉ c.symbols.map Prod.fst := by
  intro hmem
  rw [h.map_fst_symbols] at hn
  exact hn (List.mem_append_left _ hmem)

/-- A symbol that is taken behind the exports was taken before them, unless it is one of theirs. -/
lemma lookup_eq_some (h : Extends c exports c') {n previous : String}
    (hlookup : c'.symbols.lookup n = some previous) (hn : n ∉ exports.map Exported.symbol) :
    c.symbols.lookup n = some previous := by
  have hnone : (exports.map fun x => (x.symbol, x.source.origin)).lookup n = none := by
    rw [Assoc.lookup_eq_none_iff, List.map_map]
    exact hn
  rwa [h.symbols, List.lookup_append, hnone, Option.or_none] at hlookup

end Extends

/-! ### One export -/

/-- An export is made with the answer `a`, or its symbol was claimed before. -/
inductive ExportOutcome {α : Type} (x : Exported) (a : α) (c : Crate) :
    EStateM.Result Failure Crate α → Prop where
  | taken (previous : String) (lookup : c.symbols.lookup x.symbol = some previous) :
      ExportOutcome x a c
        (.error (.registration (.symbolTaken x.symbol x.source.origin previous)) c)
  | made {c' : Crate} (fresh : x.symbol ∉ c.symbols.map Prod.fst) (grown : Extends c [x] c') :
      ExportOutcome x a c (.ok a c')

namespace Registering

/-- A wrapper that is exported, and then put into the other records by `f`. -/
lemma exportOutcome_exportWrapper (x : Exported) {α : Type} {a : α} {f : Unit → Registering α}
    (hf : ∀ c, ∃ notes, f () c = .ok a { c with
      signatures := c.signatures ++ [x.wrapper.signature]
      descriptors := c.descriptors ++ x.source.descriptor?.toList
      notes := notes }) (c : Crate) :
    ExportOutcome x a c ((exportWrapper x.wrapper x.source.origin >>= f) c) := by
  obtain ⟨body, hbody⟩ := x.isBlock
  rcases exportWrapper_cases hbody x.source.origin c with
    ⟨previous, htaken, hfail⟩ | ⟨hfresh, e, hdone, hlines, hframes⟩
  · rw [run_bind_of_error hfail]
    exact .taken previous htaken
  · obtain ⟨notes, hrecorded⟩ := hf { c with
      symbols := c.symbols ++ [(x.wrapper.signature.name, x.source.origin)], emitter := e }
    rw [run_bind hdone, hrecorded]
    refine .made hfresh ⟨rfl, rfl, ?_, ?_, hframes, rfl, rfl⟩
    · cases hdescriptor : x.source.descriptor? <;> simp [hdescriptor]
    · refine ⟨[x.wrapper.block body], .cons (writtenAs_of_appends hbody) .nil, ?_⟩
      rw [List.flatMap_singleton]
      exact hlines

/-- A descriptor with a wrapper. -/
lemma exportOutcome_register {d : Descriptor} {w : Wrapper} (h : d.compile = .ok w) (c : Crate) :
    ExportOutcome ⟨.function d, w, h⟩ d c (register d c) := by
  unfold register
  rw [h]
  exact exportOutcome_exportWrapper ⟨.function d, w, h⟩ (fun _ => ⟨_, rfl⟩) c

/-- A destructor with a wrapper. -/
lemma exportOutcome_addDestructor {name : String} {params : List BoundaryType} {w : Wrapper}
    (h : compileDestructor (some (.struct name params)) none = .ok w) (c : Crate) :
    ExportOutcome ⟨.destructor name params, w, h⟩ () c (addDestructor name params c) := by
  rw [addDestructor, h]
  refine exportOutcome_exportWrapper ⟨.destructor name params, w, h⟩ (fun c => ⟨c.notes, ?_⟩) c
  rw [Export.descriptor?, Option.toList_none, List.append_nil]
  rfl

end Registering

/-! ### Functions and dependencies -/

namespace Descriptor

/-- The descriptor on its own. -/
def alone (d : Descriptor) : Descriptor := { d with owner := none, receiver := .none }

/-- The descriptor on an owner: the owner is a struct, and takes the place of the placeholder. -/
def on? (owner : Option BoundaryType) (d : Descriptor) : Option Descriptor :=
  match owner with
  | some (.struct name params) => (Registering.resolved d (.struct name params)).toOption
  | _ => none

end Descriptor

/-- The registration of a function, of which `described` is the descriptor if there is one: it
gives the descriptor and the records have grown by its export, or it fails and the crate is as it
was. It fails only if there is nothing to export or the symbol is taken. -/
inductive FunctionOutcome (described : Option Descriptor) (c : Crate) :
    EStateM.Result Failure Crate Descriptor → Prop where
  | refused (fault : Failure) (reason : ∀ d ∈ described, ∀ w, d.compile = .ok w →
      d.symbol ∈ c.symbols.map Prod.fst) : FunctionOutcome described c (.error fault c)
  | registered {d : Descriptor} {w : Wrapper} {c' : Crate} (asked : described = some d)
      (compiled : d.compile = .ok w) (fresh : d.symbol ∉ c.symbols.map Prod.fst)
      (grown : Extends c [⟨.function d, w, compiled⟩] c') :
      FunctionOutcome described c (.ok d c')

namespace Registering

lemma functionOutcome_register (d : Descriptor) (c : Crate) :
    FunctionOutcome (some d) c (register d c) := by
  cases hcompile : d.compile with
  | error fault =>
      rw [register_of_error hcompile]
      refine .refused _ fun d' hd' w hw => ?_
      cases hd'
      rw [hcompile] at hw
      cases hw
  | ok w =>
      have hsymbol : (Exported.mk (.function d) w hcompile).symbol = d.symbol :=
        Exported.symbol_eq_of_descriptor? _ rfl
      have houtcome := exportOutcome_register hcompile c
      generalize register d c = result at houtcome
      cases houtcome with
      | taken previous hlookup =>
          refine .refused _ fun d' hd' w' _ => ?_
          cases hd'
          by_contra hfree
          rw [← hsymbol, ← Assoc.lookup_eq_none_iff, hlookup] at hfree
          cases hfree
      | made hfresh hgrown => exact .registered rfl hcompile (hsymbol ▸ hfresh) hgrown

lemma functionOutcome_addMethod (owner : Option BoundaryType) (d : Descriptor) (c : Crate) :
    FunctionOutcome (d.on? owner) c (addMethod owner d c) := by
  have hother : ∀ fault, d.on? owner = none →
      FunctionOutcome (d.on? owner) c (.error fault c) := by
    intro fault hnone
    rw [hnone]
    exact .refused fault fun _ h => absurd h (Option.not_mem_none _)
  cases owner with
  | none => exact hother _ rfl
  | some t =>
      cases t with
      | struct name params =>
          rw [addMethod.eq_def, Descriptor.on?.eq_def]
          dsimp only
          cases hresolved : resolved d (.struct name params) with
          | error fault => exact .refused _ fun _ h => absurd h (Option.not_mem_none _)
          | ok d' => exact functionOutcome_register d' c
      | _ => exact hother _ rfl

/-- **Registrations are atomic.** On any crate, whatever was registered before and whatever scopes
are open, a function or a method is registered whole, as one symbol, one signature and one
descriptor, or the crate is as it was; and so is a dependency, which is refused only for its
options. -/
theorem registering_atomic (c : Crate) :
    (∀ owner d, FunctionOutcome (d.on? owner) c (addMethod owner d c)) ∧
      (∀ d, FunctionOutcome (some d.alone) c (addFunction d c)) ∧
        ∀ name options,
          (∃ fault, dependencyEntry name options = .error fault ∧
            addDependency name options c = .error (.registration fault) c) ∨
          ∃ entry, dependencyEntry name options = .ok entry ∧
            addDependency name options c =
              .ok () { c with dependencies := c.dependencies ++ [entry] } := by
  refine ⟨fun owner d => functionOutcome_addMethod owner d c,
    fun d => functionOutcome_register d.alone c, fun name options => ?_⟩
  rw [addDependency]
  cases dependencyEntry name options with
  | error fault => exact Or.inl ⟨fault, rfl, rfl⟩
  | ok entry => exact Or.inr ⟨entry, rfl, rfl⟩

end Registering

end AbiBridge
