import AbiBridge.Assoc
import AbiBridge.Crate.Output
import AbiBridge.Proofs.Wrapper.Emission

/-!
Registrations on a crate.

A crate keeps several records of what was registered: the claimed symbols, the signatures, the
descriptors and the lines of the wrappers. They are updated at different places, and a registration
may fail half way.

* `Exported`: a function or a destructor with the wrapper that was compiled for it;
* `Records`: all the records of a crate are those of one list of exports;
* `recorded_perform`: a registration keeps this, also where it fails;
* `recorded_runAll`: so it holds after every list of registrations.
-/

namespace AbiBridge

open Emitter Outcome

/-! ### Calls -/

/-- A registration on a crate. -/
inductive Registration where
  /-- A handle to a struct, with traits. -/
  | handle (t : Option BoundaryType) (traits : List DerivedTrait)
  /-- A function that is defined on a struct. -/
  | method (owner : Option BoundaryType) (d : Descriptor)
  /-- A function of its own. -/
  | function (d : Descriptor)
  /-- A crate that the crate depends on. -/
  | dependency (name : String) (options : List (String × Value))
  /-- A path that is brought into scope. -/
  | path (text : String)

namespace Registration

def perform : Registration → Registering Unit
  | handle t traits => Registering.addHandle t traits
  | method owner d => discard (Registering.addMethod owner d)
  | function d => discard (Registering.addFunction d)
  | dependency name options => Registering.addDependency name options
  | path text => Registering.addImport text

/-- The path that a registration brings into scope. -/
def path? : Registration → Option String
  | path text => some text
  | handle .. | method .. | function .. | dependency .. => none

end Registration

/-- A crate after registrations, of which each one may fail. -/
def Crate.runAll (c : Crate) (calls : List Registration) : Crate :=
  calls.foldl (fun c call => after call.perform c) c

/-! ### Exports -/

/-- What is exported: a function, or the destructor of a handle. -/
inductive Export where
  | function (d : Descriptor)
  | destructor (name : String) (params : List BoundaryType)

namespace Export

def compile : Export → Except DescriptorFault Wrapper
  | function d => d.compile
  | destructor name params => compileDestructor (some (.struct name params)) none

/-- What a symbol is claimed for. -/
def origin : Export → String
  | function d => d.funcName
  | destructor name _ => name ++ " destructor"

/-- The descriptor of a function. -/
def descriptor? : Export → Option Descriptor
  | function d => some d
  | destructor .. => none

def isFunction : Export → Bool
  | function _ => true
  | destructor .. => false

end Export

/-- An export with its wrapper. -/
structure Exported where
  source : Export
  wrapper : Wrapper
  compiled : source.compile = .ok wrapper

namespace Exported

variable (x : Exported)

def symbol : String := x.wrapper.signature.name

/-- The body of the wrapper is a block of lines. -/
lemma isBlock : IsBlock x.wrapper.body := by
  obtain ⟨source, wrapper, compiled⟩ := x
  cases source with
  | function d => exact isBlock_of_compile compiled
  | destructor name params =>
      have hcompiled : compileDestructor (some (.struct name params)) none = .ok wrapper := compiled
      exact isBlock_of_compileDestructor hcompiled

/-- Wrappers are exported under their plain names. -/
lemma exported : x.wrapper.signature.exported = true := by
  obtain ⟨source, wrapper, compiled⟩ := x
  cases source with
  | function d =>
      obtain ⟨a, rfl⟩ := Descriptor.exists_assembly compiled
      rfl
  | destructor name params =>
      have hcompiled : compileDestructor (some (.struct name params)) none = .ok wrapper := compiled
      exact congrArg Signature.exported (signature_of_compileDestructor hcompiled)

/-- The wrapper of a function is that of its descriptor. -/
lemma compile_eq_of_descriptor? {d : Descriptor} (h : x.source.descriptor? = some d) :
    d.compile = .ok x.wrapper := by
  obtain ⟨source, wrapper, compiled⟩ := x
  cases source with
  | function d' =>
      cases h
      exact compiled
  | destructor name params => cases h

/-- A function is exported under the symbol of its descriptor. -/
lemma symbol_eq_of_descriptor? {d : Descriptor} (h : x.source.descriptor? = some d) :
    x.symbol = d.symbol := by
  obtain ⟨a, ha⟩ := Descriptor.exists_assembly (x.compile_eq_of_descriptor? h)
  rw [symbol, ha]
  rfl

end Exported

/-! ### Records -/

/-- The records of a crate are those of a list of exports, and `imports` are the paths that are
brought into scope. -/
structure Records (exports : List Exported) (imports : List String) (c : Crate) : Prop where
  signatures : c.signatures = exports.map fun x => x.wrapper.signature
  symbols : c.symbols = exports.map fun x => (x.symbol, x.source.origin)
  nodup : (exports.map Exported.symbol).Nodup
  descriptors : c.descriptors = exports.filterMap fun x => x.source.descriptor?
  imports : c.imports = imports
  closed : c.emitter.frames = []
  /-- An empty line stands behind every wrapper. -/
  lines : ∃ blocks, List.Forall₂ (fun x block => ∃ body,
      Appends (Statement.emitAll x.wrapper.body) body ∧ block = x.wrapper.block body)
    exports blocks ∧ c.emitter.lines = blocks.flatMap (· ++ [""])

/-- The records of a crate agree. -/
def Recorded (imports : List String) (c : Crate) : Prop := ∃ exports, Records exports imports c

/-- An export goes into all the records. -/
lemma Records.add {exports : List Exported} {imports : List String} {c c' : Crate}
    (h : Records exports imports c) (x : Exported) {body : List String}
    (hbody : Appends (Statement.emitAll x.wrapper.body) body)
    (hnew : x.symbol ∉ c.symbols.map Prod.fst)
    (hsignatures : c'.signatures = c.signatures ++ [x.wrapper.signature])
    (hsymbols : c'.symbols = c.symbols ++ [(x.symbol, x.source.origin)])
    (hdescriptors : c'.descriptors = c.descriptors ++ x.source.descriptor?.toList)
    (himports : c'.imports = c.imports) (hclosed : c'.emitter.frames = [])
    (hlines : c'.emitter.lines = c.emitter.lines ++ (x.wrapper.block body ++ [""])) :
    Records (exports ++ [x]) imports c' where
  signatures := by rw [hsignatures, h.signatures, List.map_append, List.map_singleton]
  symbols := by rw [hsymbols, h.symbols, List.map_append, List.map_singleton]
  nodup := by
    have hfree : x.symbol ∉ exports.map Exported.symbol := by
      rw [h.symbols, List.map_map] at hnew
      exact hnew
    rw [List.map_append, List.map_singleton, List.nodup_append_comm]
    exact List.nodup_cons.mpr ⟨hfree, h.nodup⟩
  descriptors := by
    rw [hdescriptors, h.descriptors, List.filterMap_append]
    cases hdescriptor : x.source.descriptor? <;> simp [hdescriptor]
  imports := himports.trans h.imports
  closed := hclosed
  lines := by
    obtain ⟨blocks, hblocks, hold⟩ := h.lines
    refine ⟨blocks ++ [x.wrapper.block body], ?_, ?_⟩
    · exact List.rel_append hblocks (.cons ⟨body, hbody, rfl⟩ .nil)
    · rw [hlines, hold, List.flatMap_append, List.flatMap_singleton]

namespace Records

variable {exports : List Exported} {imports : List String} {c : Crate}

/-- A path that is brought into scope comes behind the others. -/
lemma addImport (h : Records exports imports c) (path : String) :
    Records exports (imports ++ [path]) { c with imports := c.imports ++ [path] } :=
  ⟨h.signatures, h.symbols, h.nodup, h.descriptors, congrArg (· ++ [path]) h.imports, h.closed,
    h.lines⟩

/-- Dependencies are no record of an export. -/
lemma setDependencies (h : Records exports imports c) (dependencies : List String) :
    Records exports imports { c with dependencies := dependencies } :=
  ⟨h.signatures, h.symbols, h.nodup, h.descriptors, h.imports, h.closed, h.lines⟩

end Records

lemma records_new (package : String) (output : Path) (settings : Settings) :
    Records [] [] (Crate.new package output settings) :=
  ⟨rfl, rfl, List.nodup_nil, rfl, rfl, rfl, [], .nil, rfl⟩

namespace Registering

/-- A function without a wrapper is refused. -/
lemma register_of_error {d : Descriptor} {fault : DescriptorFault} (h : d.compile = .error fault)
    (c : Crate) : register d c = .error (.descriptor fault) c := by
  unfold register
  rw [h]
  rfl

/-- A handle without a destructor is refused. -/
lemma addDestructor_of_error {name : String} {params : List BoundaryType} {fault : DescriptorFault}
    (h : compileDestructor (some (.struct name params)) none = .error fault) (c : Crate) :
    addDestructor name params c = .error (.descriptor fault) c := by
  rw [addDestructor, h]
  rfl

/-- A wrapper is exported if its symbol is free, and otherwise nothing happens. -/
lemma exportWrapper_cases {w : Wrapper} {body : List String}
    (hbody : Appends (Statement.emitAll w.body) body) (origin : String) (c : Crate) :
    (∃ previous, c.symbols.lookup w.signature.name = some previous ∧ exportWrapper w origin c =
        .error (.registration (.symbolTaken w.signature.name origin previous)) c) ∨
      w.signature.name ∉ c.symbols.map Prod.fst ∧ ∃ e,
        exportWrapper w origin c = .ok () { c with
          symbols := c.symbols ++ [(w.signature.name, origin)], emitter := e } ∧
        e.lines = c.emitter.lines ++ c.emitter.placed (w.block body) ∧
        e.frames = c.emitter.frames := by
  cases hlookup : c.symbols.lookup w.signature.name with
  | some previous =>
      have hclaim : claim w.signature.name origin c =
          .error (.registration (.symbolTaken w.signature.name origin previous)) c := by
        rw [claim, run_bind (run_get c), hlookup]
        rfl
      exact Or.inl ⟨previous, rfl, run_bind_of_error hclaim⟩
  | none =>
      have hclaim : claim w.signature.name origin c =
          .ok () { c with symbols := c.symbols ++ [(w.signature.name, origin)] } := by
        rw [claim, run_bind (run_get c), hlookup]
        rfl
      obtain ⟨e, hrun, hlines, hframes⟩ := yields_wrapper hbody c.emitter
      refine Or.inr ⟨Assoc.lookup_eq_none_iff.mp hlookup, e, ?_, hlines, hframes⟩
      rw [exportWrapper, run_bind hclaim, emission, hrun]

variable {imports : List String}

lemma keeps_note (level : Level) (text : String) : Keeps (Recorded imports) (note level text) := by
  rintro c ⟨exports, h⟩
  exact ⟨exports, h.signatures, h.symbols, h.nodup, h.descriptors, h.imports, h.closed, h.lines⟩

/-- A wrapper that is exported and then goes into the other records. In between the records do not
agree, so the two steps are taken together. -/
lemma keeps_exportWrapper (x : Exported) {α : Type} {f : Unit → Registering α}
    (hsignatures : ∀ c, (after (f ()) c).signatures = c.signatures ++ [x.wrapper.signature])
    (hdescriptors : ∀ c,
      (after (f ()) c).descriptors = c.descriptors ++ x.source.descriptor?.toList)
    (hothers : ∀ c, (after (f ()) c).symbols = c.symbols ∧ (after (f ()) c).imports = c.imports ∧
      (after (f ()) c).emitter = c.emitter) :
    Keeps (Recorded imports) (exportWrapper x.wrapper x.source.origin >>= f) := by
  rintro c ⟨exports, h⟩
  obtain ⟨body, hbody⟩ := x.isBlock
  rcases exportWrapper_cases hbody x.source.origin c with
    ⟨previous, -, hfail⟩ | ⟨hnew, e, hdone, hlines, hframes⟩
  · rw [after_bind_of_error hfail]
    exact ⟨exports, h⟩
  · rw [after_bind_of_ok hdone]
    rw [placed_of_frames_eq_nil h.closed] at hlines
    obtain ⟨hsymbols, himports, hemitter⟩ := hothers { c with
      symbols := c.symbols ++ [(x.symbol, x.source.origin)], emitter := e }
    exact ⟨_, h.add x hbody hnew (hsignatures _) hsymbols (hdescriptors _) himports
      (hemitter ▸ hframes.trans h.closed) (hemitter ▸ hlines)⟩

lemma keeps_register (d : Descriptor) : Keeps (Recorded imports) (register d) := by
  unfold register
  cases hcompile : d.compile with
  | error fault => exact .throw _
  | ok w =>
      exact keeps_exportWrapper ⟨.function d, w, hcompile⟩ (fun _ => rfl) (fun _ => rfl)
        fun _ => ⟨rfl, rfl, rfl⟩

lemma keeps_addDestructor (name : String) (params : List BoundaryType) :
    Keeps (Recorded imports) (addDestructor name params) := by
  unfold addDestructor
  cases hcompile : compileDestructor (some (.struct name params)) none with
  | error fault => exact .throw _
  | ok w =>
      exact keeps_exportWrapper ⟨.destructor name params, w, hcompile⟩ (fun _ => rfl)
        (fun _ => (List.append_nil _).symm) fun _ => ⟨rfl, rfl, rfl⟩

lemma keeps_addMethod (owner : Option BoundaryType) (d : Descriptor) :
    Keeps (Recorded imports) (addMethod owner d) := by
  rw [addMethod.eq_def]
  split
  · split
    · exact .throw _
    · exact keeps_register _
  · exact .throw _

lemma keeps_addHandle (t : Option BoundaryType) (traits : List DerivedTrait) :
    Keeps (Recorded imports) (addHandle t traits) := by
  rw [addHandle.eq_def]
  split
  · refine (keeps_addDestructor _ _).bind fun _ => ?_
    refine .ite_bind (keeps_addMethod _ _).discard fun _ => ?_
    refine .ite_bind (keeps_addMethod _ _).discard fun _ => ?_
    refine .ite_bind (keeps_note _ _) fun _ => ?_
    exact .ite (keeps_addMethod _ _).discard (.pure ())
  · exact .throw _

lemma keeps_addDependency (name : String) (options : List (String × Value)) :
    Keeps (Recorded imports) (addDependency name options) := by
  rw [addDependency]
  split
  · exact .throw _
  · rintro c ⟨exports, h⟩
    exact ⟨exports, h.setDependencies _⟩

lemma recorded_addImport {c : Crate} (h : Recorded imports c) (path : String) :
    Recorded (imports ++ [path]) (after (addImport path) c) := by
  obtain ⟨exports, h⟩ := h
  exact ⟨exports, h.addImport path⟩

end Registering

/-- One registration, whether or not it fails. -/
lemma recorded_perform {imports : List String} {c : Crate} (h : Recorded imports c)
    (call : Registration) : Recorded (imports ++ call.path?.toList) (after call.perform c) := by
  cases call with
  | path text => exact Registering.recorded_addImport h text
  | handle t traits =>
      rw [Registration.path?, Option.toList_none, List.append_nil]
      exact Registering.keeps_addHandle t traits c h
  | method owner d =>
      rw [Registration.path?, Option.toList_none, List.append_nil]
      exact (Registering.keeps_addMethod owner d).discard c h
  | function d =>
      rw [Registration.path?, Option.toList_none, List.append_nil]
      exact (Registering.keeps_register _).discard c h
  | dependency name options =>
      rw [Registration.path?, Option.toList_none, List.append_nil]
      exact Registering.keeps_addDependency name options c h

/-- A list of registrations, some of which may fail. -/
lemma recorded_runAll {imports : List String} {c : Crate} (h : Recorded imports c)
    (calls : List Registration) :
    Recorded (imports ++ calls.filterMap Registration.path?) (c.runAll calls) := by
  induction calls generalizing imports c with
  | nil =>
      rw [List.filterMap_nil, List.append_nil]
      exact h
  | cons call calls ih =>
      have hstep := ih (recorded_perform h call)
      have himports : imports ++ (call :: calls).filterMap Registration.path? =
          imports ++ call.path?.toList ++ calls.filterMap Registration.path? := by
        cases hpath : call.path? <;> simp [hpath]
      rw [himports]
      exact hstep

lemma recorded_new (package : String) (output : Path) (settings : Settings) :
    Recorded [] (Crate.new package output settings) :=
  ⟨[], records_new package output settings⟩

end AbiBridge
