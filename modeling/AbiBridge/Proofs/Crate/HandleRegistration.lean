import AbiBridge.Proofs.Crate.Atomicity

/-!
How far the registration of a handle comes.

A handle is registered in several exports, one after the other: its destructor and a function for
each of its traits. Each of them is atomic and all of them together are not: where a symbol is
taken, the exports before it stay.

* `Makes`: exports are made one after the other, up to the first one whose symbol is taken;
* `HandleOutcome`: a handle is refused, registered, or abandoned half way;
* `handle_abandoned_iff`: when a registration that fails has changed the crate.
-/

namespace AbiBridge

open Outcome

/-! ### What is exported for a handle -/

namespace DerivedTrait

/-- The name of the function that a struct has of a trait. -/
def funcName : DerivedTrait → String
  | default => "default"
  | clone => "clone"
  | partialEq | eq => "eq"

/-- The names of its arguments. -/
def argNames : DerivedTrait → List String
  | default => []
  | clone => ["source"]
  | partialEq | eq => ["left", "right"]

/-- The type of its result. -/
def result (t : BoundaryType) : DerivedTrait → BoundaryType
  | default | clone => t
  | partialEq | eq => .primitive "bool"

/-- The function that a struct has of a trait; every argument borrows the struct. -/
def function (t : BoundaryType) (r : DerivedTrait) : Descriptor where
  funcName := r.funcName
  owner := some t
  args := r.argNames.map fun name => (name, .sharedRef t)
  ret := some (r.result t)

/-- The traits whose functions are exported, in order. Both kinds of equality share one. -/
def exported (traits : List DerivedTrait) : List DerivedTrait :=
  (if traits.contains .default then [.default] else []) ++
    ((if traits.contains .clone then [.clone] else []) ++
      if traits.contains .partialEq || traits.contains .eq then [.eq] else [])

lemma isName_funcName (r : DerivedTrait) : Name.IsName r.funcName := by
  cases r <;> exact ⟨by decide, by decide⟩

lemma nodup_argNames (r : DerivedTrait) : r.argNames.Nodup := by cases r <;> decide

section Named

variable {name : String} {params : List BoundaryType} (h : (BoundaryType.struct name params).Named)
  (r : DerivedTrait)

include h

lemma named_result : (r.result (.struct name params)).Named := by
  cases r
  case default | clone => exact h
  all_goals exact .primitive _

/-- The functions of a named struct have wrappers. -/
lemma acceptable_function : (r.function (.struct name params)).Acceptable where
  funcName := r.isName_funcName
  exportName := nofun
  owner := by
    rintro t ⟨⟩
    exact ⟨⟨name, params, rfl⟩, h⟩
  receiver := nofun
  argNames := by
    intro a ha
    obtain ⟨n, hn, rfl⟩ := List.mem_map.mp ha
    have hall : ∀ n ∈ r.argNames,
        Name.isIdentifier n = true ∧ n ∉ Name.keywords ∧ n ∉ reservedNames := by
      cases r <;> decide
    obtain ⟨hid, hkeyword, hfree⟩ := hall n hn
    exact ⟨⟨hid, hkeyword⟩, hfree⟩
  distinct := by
    have hslots : (fun n => Descriptor.slotNames (n, .sharedRef (.struct name params))) =
        fun n => [n] := rfl
    rw [function, List.flatMap_map, hslots, List.flatMap_singleton']
    exact r.nodup_argNames
  argTypes := by
    intro a ha
    obtain ⟨n, -, rfl⟩ := List.mem_map.mp ha
    exact ⟨.sharedRef h, .sharedRef name params⟩
  result := by
    rintro t ⟨⟩
    refine ⟨named_result h r, .simple ?_⟩
    cases r
    case default | clone => exact .struct name params
    all_goals exact .primitive _

/-- Registering a function of a trait on its struct: no placeholder is left to resolve. -/
lemma addMethod_function :
    Registering.addMethod (some (.struct name params))
      { r.function (.struct name params) with owner := none } =
      Registering.register (r.function (.struct name params)) := by
  have hargs : (r.function (.struct name params)).args.mapM
      (fun a => do return (a.1, ← a.2.resolveSelf (.struct name params))) =
        (Except.ok (r.function (.struct name params)).args : Except TypeFault _) := by
    rw [mapM_eq_ok, List.forall₂_same]
    intro a ha
    obtain ⟨n, -, rfl⟩ := List.mem_map.mp ha
    rw [BoundaryType.Named.resolveSelf_eq (.sharedRef h)]
    rfl
  have hresolved : Registering.resolved { r.function (.struct name params) with owner := none }
      (.struct name params) = .ok (r.function (.struct name params)) := by
    rw [Registering.resolved]
    refine bind_eq_ok.mpr ⟨_, hargs, bind_eq_ok.mpr
      ⟨some (r.result (.struct name params)), ?_, rfl⟩⟩
    rw [function, Option.mapM_some, (named_result h r).resolveSelf_eq]
    rfl
  rw [Registering.addMethod, hresolved]

end Named

end DerivedTrait

/-- What is exported for a handle to a struct: the destructor, and behind it the functions of the
traits. -/
def handleExports (name : String) (params : List BoundaryType) (traits : List DerivedTrait) :
    List Export :=
  .destructor name params ::
    (DerivedTrait.exported traits).map fun r => .function (r.function (.struct name params))

/-! ### One export after the other -/

/-- An export whose answer is thrown away. -/
lemma ExportOutcome.discard {x : Exported} {α : Type} {a : α} {c : Crate} {m : Registering α}
    (h : ExportOutcome x a c (m c)) : ExportOutcome x () c (Functor.discard m c) := by
  rw [discard_eq_bind]
  cases hresult : m c with
  | ok b c' =>
      rw [hresult] at h
      rw [run_bind hresult]
      cases h with
      | made hfresh hgrown => exact .made hfresh hgrown
  | error fault c' =>
      rw [hresult] at h
      rw [run_bind_of_error hresult]
      cases h with
      | taken previous hlookup => exact .taken previous hlookup

/-- Exports are made one after the other: all of them, or those before the first one whose symbol
is taken. -/
inductive Makes (c : Crate) (exports : List Exported) :
    EStateM.Result Failure Crate Unit → Prop where
  | all {c' : Crate} (fresh : ∀ x ∈ exports, x.symbol ∉ c.symbols.map Prod.fst)
      (grown : Extends c exports c') : Makes c exports (.ok () c')
  | upTo (front : List Exported) (x : Exported) (back : List Exported) {previous : String}
      {c' : Crate} (split : exports = front ++ x :: back)
      (fresh : ∀ y ∈ front, y.symbol ∉ c.symbols.map Prod.fst) (grown : Extends c front c')
      (lookup : c'.symbols.lookup x.symbol = some previous) :
      Makes c exports
        (.error (.registration (.symbolTaken x.symbol x.source.origin previous)) c')

namespace Makes

variable {c : Crate} {exports exports' : List Exported} {x : Exported}

lemma nil (c : Crate) : Makes c [] (.ok () c) :=
  .all (fun _ hx => absurd hx List.not_mem_nil) (.refl c)

/-- One export. -/
lemma of_exportOutcome {result : EStateM.Result Failure Crate Unit}
    (h : ExportOutcome x () c result) : Makes c [x] result := by
  cases h with
  | taken previous hlookup =>
      exact .upTo [] x [] rfl (fun _ hy => absurd hy List.not_mem_nil) (.refl c) hlookup
  | made hfresh hgrown =>
      refine .all (fun y hy => ?_) hgrown
      rwa [List.mem_singleton.mp hy]

/-- Exports that are made behind others. -/
lemma bind {m : Registering Unit} {f : Unit → Registering Unit} (h : Makes c exports (m c))
    (hf : ∀ c', Makes c' exports' (f () c')) : Makes c (exports ++ exports') ((m >>= f) c) := by
  cases hresult : m c with
  | error fault c' =>
      rw [hresult] at h
      rw [run_bind_of_error hresult]
      cases h with
      | upTo front y back hsplit hfresh hgrown hlookup =>
          refine .upTo front y (back ++ exports') ?_ hfresh hgrown hlookup
          rw [hsplit, List.append_assoc, List.cons_append]
  | ok _ c' =>
      rw [hresult] at h
      rw [run_bind hresult]
      cases h with
      | all hfresh hgrown =>
          have hall : ∀ {front : List Exported}, (∀ y ∈ front, y.symbol ∉ c'.symbols.map Prod.fst) →
              ∀ y ∈ exports ++ front, y.symbol ∉ c.symbols.map Prod.fst := fun hfront =>
            List.forall_mem_append.mpr ⟨hfresh, fun y hy => hgrown.notMem_symbols (hfront y hy)⟩
          have hrest := hf c'
          generalize f () c' = result at hrest
          cases hrest with
          | all hfresh' hgrown' =>
              exact .all (hall hfresh') (hgrown.trans hgrown')
          | upTo front y back hsplit hfresh' hgrown' hlookup =>
              refine .upTo (exports ++ front) y back ?_ (hall hfresh') (hgrown.trans hgrown')
                hlookup
              rw [hsplit, List.append_assoc]

/-- An export that is only made under a condition. -/
lemma ite_bind {b : Bool} {m : Registering Unit} {f : Unit → Registering Unit}
    (h : ∀ c, Makes c [x] (m c)) (hf : ∀ c, Makes c exports (f () c)) (c : Crate) :
    Makes c ((if b then [x] else []) ++ exports) ((if b then m >>= f else f ()) c) := by
  cases b with
  | true => exact (h c).bind hf
  | false => exact hf c

/-- Something may be told before the exports are made. -/
lemma note_bind {b : Bool} {level : Level} {text : String} {f : Unit → Registering Unit}
    (hf : ∀ c, Makes c exports (f () c)) (c : Crate) :
    Makes c exports ((if b then Registering.note level text >>= f else f ()) c) := by
  cases b with
  | true =>
      have hnote : Makes c [] (Registering.note level text c) :=
        .all (fun _ hx => absurd hx List.not_mem_nil) ((Extends.refl c).note _)
      exact hnote.bind hf
  | false => exact hf c

end Makes

/-! ### The exports of a handle -/

namespace Registering

/-- Behind the destructor, the functions of the traits are exported one after the other. -/
lemma exists_makes_functions {name : String} {params : List BoundaryType}
    (h : (BoundaryType.struct name params).Named) (traits : List DerivedTrait) :
    ∃ functions rest, functions.map Exported.source = (DerivedTrait.exported traits).map
        (fun r => .function (r.function (.struct name params))) ∧
      addHandle (some (.struct name params)) traits = addDestructor name params >>= rest ∧
      ∀ c, Makes c functions (rest () c) := by
  have hwrapper : ∀ r : DerivedTrait, ∃ w, (r.function (.struct name params)).compile = .ok w := by
    intro r
    obtain ⟨w, hw⟩ := (r.acceptable_function h).exists_wrapper
    exact ⟨w, Descriptor.compile_eq_ok_iff.mpr ⟨r.acceptable_function h, hw⟩⟩
  choose wrappers hwrappers using hwrapper
  let function (r : DerivedTrait) : Exported := ⟨.function _, wrappers r, hwrappers r⟩
  have hone : ∀ r c, Makes c [function r] (discard (addMethod (some (.struct name params))
      { r.function (.struct name params) with owner := none }) c) := by
    intro r c
    rw [DerivedTrait.addMethod_function h]
    exact .of_exportOutcome (exportOutcome_register (hwrappers r) c).discard
  have hfunctions : (DerivedTrait.exported traits).map function =
      (if traits.contains .default then [function .default] else []) ++
        ((if traits.contains .clone then [function .clone] else []) ++
          if traits.contains .partialEq || traits.contains .eq then [function .eq] else []) := by
    simp only [DerivedTrait.exported, List.map_append, apply_ite (List.map function),
      List.map_cons, List.map_nil]
  refine ⟨(DerivedTrait.exported traits).map function, _, List.map_map, rfl, fun c => ?_⟩
  rw [hfunctions]
  refine Makes.ite_bind (hone .default) (fun c => ?_) c
  refine Makes.ite_bind (hone .clone) (fun c => ?_) c
  refine Makes.note_bind (fun c => ?_) c
  split
  · exact hone .eq c
  · exact .nil c

end Registering

/-! ### Symbols of a handle -/

/-- The symbol under which something is exported. -/
def Export.symbol : Export → String
  | function d => d.symbol
  | destructor name _ => Name.baseName name ++ "_free"

lemma Exported.symbol_eq (x : Exported) : x.symbol = x.source.symbol := by
  obtain ⟨source, wrapper, compiled⟩ := x
  cases source with
  | function d => exact symbol_eq_of_descriptor? _ rfl
  | destructor name params =>
      have hcompiled : compileDestructor (some (.struct name params)) none = .ok wrapper := compiled
      exact congrArg Signature.name (signature_of_compileDestructor hcompiled)

section Symbols

variable {name : String} {params : List BoundaryType} {traits : List DerivedTrait}

/-- The exports of a handle have the names of their functions behind the name of the struct. -/
lemma map_symbol_handleExports : (handleExports name params traits).map Export.symbol =
    ("free" :: (DerivedTrait.exported traits).map DerivedTrait.funcName).map
      (Name.baseName name ++ "_" ++ ·) := by
  have hfree : "_free" = "_" ++ "free" := by decide
  rw [handleExports, List.map_cons, List.map_cons, List.map_map, List.map_map, Export.symbol, hfree,
    ← String.append_assoc]
  rfl

/-- An export of a handle has none of the symbols of those before it. -/
lemma symbol_notMem_of_sources {front back : List Exported} {x : Exported}
    (h : (front ++ x :: back).map Exported.source = handleExports name params traits) :
    x.symbol ∉ front.map Exported.symbol := by
  have hsymbol : Exported.symbol = Export.symbol ∘ Exported.source := funext Exported.symbol_eq
  have hnodup : ((front ++ x :: back).map Exported.symbol).Nodup := by
    rw [hsymbol, ← List.map_map, h, map_symbol_handleExports]
    refine List.Nodup.map (fun _ _ h => String.append_right_inj _ |>.mp h) ?_
    rw [DerivedTrait.exported]
    cases traits.contains .default <;> cases traits.contains .clone <;>
      cases traits.contains .partialEq || traits.contains .eq <;> decide
  rw [List.map_append, List.map_cons, List.nodup_middle, List.nodup_cons, List.mem_append,
    not_or] at hnodup
  exact hnodup.1.1

/-- The first export of a handle is the destructor. -/
lemma exists_destructor_mem {front back : List Exported}
    (h : (front ++ back).map Exported.source = handleExports name params traits)
    (hbegun : front ≠ []) : (BoundaryType.struct name params).Named ∧
      ∃ y ∈ front, y.symbol = Name.baseName name ++ "_free" := by
  obtain ⟨y, ys, rfl⟩ := List.exists_cons_of_ne_nil hbegun
  rw [List.cons_append, List.map_cons, handleExports, List.cons.injEq] at h
  refine ⟨exists_compileDestructor_iff.mp ⟨y.wrapper, ?_⟩, y, List.mem_cons_self, ?_⟩
  · have hcompiled := y.compiled
    rw [h.1] at hcompiled
    exact hcompiled
  · rw [y.symbol_eq, h.1, Export.symbol]

/-- The exports behind the first one are the functions of the traits. -/
lemma exists_trait_of_source {front back : List Exported} {x : Exported}
    (h : (front ++ x :: back).map Exported.source = handleExports name params traits)
    (hbegun : front ≠ []) : ∃ r ∈ DerivedTrait.exported traits,
      x.symbol = (r.function (.struct name params)).symbol := by
  obtain ⟨y, ys, rfl⟩ := List.exists_cons_of_ne_nil hbegun
  rw [List.cons_append, List.map_cons, handleExports, List.cons.injEq] at h
  have hx : x.source ∈ (ys ++ x :: back).map Exported.source :=
    List.mem_map_of_mem (List.mem_append_right _ List.mem_cons_self)
  rw [h.2] at hx
  obtain ⟨r, hr, hsource⟩ := List.mem_map.mp hx
  exact ⟨r, hr, by rw [x.symbol_eq, ← hsource, Export.symbol]⟩

end Symbols

/-! ### The whole registration -/

/-- How the registration of a handle ends. -/
inductive HandleOutcome (t : Option BoundaryType) (traits : List DerivedTrait) (c : Crate) :
    EStateM.Result Failure Crate Unit → Prop where
  /-- There is nothing to export, or the symbol of the destructor is taken: the crate is as it
  was. -/
  | refused (fault : Failure) (reason : ∀ name params, t = some (.struct name params) →
      (BoundaryType.struct name params).Named →
        Name.baseName name ++ "_free" ∈ c.symbols.map Prod.fst) :
      HandleOutcome t traits c (.error fault c)
  /-- Everything is exported. -/
  | registered {name : String} {params : List BoundaryType} {exports : List Exported} {c' : Crate}
      (asked : t = some (.struct name params))
      (sources : exports.map Exported.source = handleExports name params traits)
      (fresh : ∀ x ∈ exports, x.symbol ∉ c.symbols.map Prod.fst) (grown : Extends c exports c') :
      HandleOutcome t traits c (.ok () c')
  /-- The symbol of a trait is taken: what was exported before it stays. -/
  | abandoned {name : String} {params : List BoundaryType} (front : List Exported) (x : Exported)
      (back : List Exported) {previous : String} {c' : Crate}
      (asked : t = some (.struct name params))
      (sources : (front ++ x :: back).map Exported.source = handleExports name params traits)
      (begun : front ≠ []) (fresh : ∀ y ∈ front, y.symbol ∉ c.symbols.map Prod.fst)
      (taken : c.symbols.lookup x.symbol = some previous) (grown : Extends c front c') :
      HandleOutcome t traits c
        (.error (.registration (.symbolTaken x.symbol x.source.origin previous)) c')

/-- Where the symbol of the destructor is taken, the handle is refused. -/
lemma HandleOutcome.exists_eq_error {name : String} {params : List BoundaryType}
    {traits : List DerivedTrait} {c : Crate} {result : EStateM.Result Failure Crate Unit}
    (h : HandleOutcome (some (.struct name params)) traits c result)
    (htaken : Name.baseName name ++ "_free" ∈ c.symbols.map Prod.fst) :
    ∃ fault, result = .error fault c := by
  cases h with
  | refused fault _ => exact ⟨fault, rfl⟩
  | @registered _ _ exports _ hasked hsources hfresh _ =>
      cases hasked
      have hne : exports ≠ [] := by
        rintro rfl
        cases hsources
      rw [← List.append_nil exports] at hsources
      obtain ⟨-, y, hy, hsymbol⟩ := exists_destructor_mem hsources hne
      exact absurd (hsymbol ▸ htaken) (hfresh y hy)
  | abandoned front x back hasked hsources hbegun hfresh _ _ =>
      cases hasked
      obtain ⟨-, y, hy, hsymbol⟩ := exists_destructor_mem hsources hbegun
      exact absurd (hsymbol ▸ htaken) (hfresh y hy)

/-- The destructor is exported, and the functions behind it are made as far as it goes. -/
lemma HandleOutcome.of_makes {name : String} {params : List BoundaryType}
    {traits : List DerivedTrait} {c c' : Crate} {x : Exported} {functions : List Exported}
    {result : EStateM.Result Failure Crate Unit} (hfresh : x.symbol ∉ c.symbols.map Prod.fst)
    (hgrown : Extends c [x] c')
    (hsources : (x :: functions).map Exported.source = handleExports name params traits)
    (h : Makes c' functions result) :
    HandleOutcome (some (.struct name params)) traits c result := by
  have hall : ∀ {front : List Exported}, (∀ y ∈ front, y.symbol ∉ c'.symbols.map Prod.fst) →
      ∀ y ∈ x :: front, y.symbol ∉ c.symbols.map Prod.fst := fun hfront =>
    List.forall_mem_cons.mpr ⟨hfresh, fun y hy => hgrown.notMem_symbols (hfront y hy)⟩
  cases h with
  | all hfresh' hgrown' => exact .registered rfl hsources (hall hfresh') (hgrown.trans hgrown')
  | upTo front y back hsplit hfresh' hgrown' hlookup =>
      rw [hsplit] at hsources
      have hwhole : Extends c (x :: front) _ := hgrown.trans hgrown'
      have hnew : y.symbol ∉ (x :: front).map Exported.symbol := symbol_notMem_of_sources hsources
      exact .abandoned (x :: front) y back rfl hsources (List.cons_ne_nil _ _) (hall hfresh')
        (hwhole.lookup_eq_some hlookup hnew) hwhole

lemma Extends.ne_of_ne_nil {c c' : Crate} {exports : List Exported} (h : Extends c exports c')
    (hexports : exports ≠ []) : c' ≠ c := by
  rintro rfl
  have hlength := congrArg List.length h.signatures
  rw [List.length_append, List.length_map] at hlength
  have hpos := List.length_pos_of_ne_nil hexports
  omega

namespace HandleOutcome

variable {t : Option BoundaryType} {traits : List DerivedTrait} {c c' : Crate} {fault : Failure}

/-- Something is left behind only where the symbol of a trait is taken. -/
lemma exists_taken (h : HandleOutcome t traits c (.error fault c')) (hchanged : c' ≠ c) :
    ∃ name params, t = some (.struct name params) ∧ (BoundaryType.struct name params).Named ∧
      Name.baseName name ++ "_free" ∉ c.symbols.map Prod.fst ∧
      ∃ r ∈ DerivedTrait.exported traits,
        (r.function (.struct name params)).symbol ∈ c.symbols.map Prod.fst := by
  cases h with
  | refused _ _ => exact absurd rfl hchanged
  | @abandoned name params front x back _ _ hasked hsources hbegun hfresh htaken _ =>
      obtain ⟨hnamed, y, hy, hsymbol⟩ := exists_destructor_mem hsources hbegun
      obtain ⟨r, hr, hfunction⟩ := exists_trait_of_source hsources hbegun
      refine ⟨name, params, hasked, hnamed, hsymbol ▸ hfresh y hy, r, hr, ?_⟩
      by_contra hfree
      rw [← hfunction, ← Assoc.lookup_eq_none_iff, htaken] at hfree
      cases hfree

/-- What is left behind holds the symbol of the destructor. -/
lemma destructor_claimed (h : HandleOutcome t traits c (.error fault c')) (hchanged : c' ≠ c) :
    ∃ name params, t = some (.struct name params) ∧
      Name.baseName name ++ "_free" ∈ c'.symbols.map Prod.fst := by
  cases h with
  | refused _ _ => exact absurd rfl hchanged
  | @abandoned name params front x back _ _ hasked hsources hbegun _ _ hgrown =>
      obtain ⟨-, y, hy, hsymbol⟩ := exists_destructor_mem hsources hbegun
      refine ⟨name, params, hasked, ?_⟩
      rw [hgrown.map_fst_symbols, ← hsymbol]
      exact List.mem_append_right _ (List.mem_map_of_mem hy)

/-- Where the destructor can be exported and the symbol of a trait is taken, something is left
behind. -/
lemma exists_ne_of_taken {name : String} {params : List BoundaryType}
    {result : EStateM.Result Failure Crate Unit}
    (h : HandleOutcome (some (.struct name params)) traits c result)
    (hnamed : (BoundaryType.struct name params).Named)
    (hfree : Name.baseName name ++ "_free" ∉ c.symbols.map Prod.fst) {r : DerivedTrait}
    (hr : r ∈ DerivedTrait.exported traits)
    (htaken : (r.function (.struct name params)).symbol ∈ c.symbols.map Prod.fst) :
    ∃ fault c', result = .error fault c' ∧ c' ≠ c := by
  cases h with
  | refused _ hreason => exact absurd (hreason name params rfl hnamed) hfree
  | @registered _ _ exports _ hasked hsources hfresh _ =>
      cases hasked
      have hmem : Export.function (r.function (.struct name params)) ∈
          exports.map Exported.source := by
        rw [hsources]
        exact List.mem_cons_of_mem _ (List.mem_map_of_mem hr)
      obtain ⟨x, hx, hsource⟩ := List.mem_map.mp hmem
      rw [← Export.symbol, ← hsource, ← x.symbol_eq] at htaken
      exact absurd htaken (hfresh x hx)
  | abandoned front x back _ _ hbegun _ _ hgrown =>
      exact ⟨_, _, rfl, hgrown.ne_of_ne_nil hbegun⟩

end HandleOutcome

namespace Registering

/-- A handle to a struct: the destructor first, and the rest behind it. -/
lemma handleOutcome_struct (name : String) (params : List BoundaryType)
    (traits : List DerivedTrait) (c : Crate) :
    HandleOutcome (some (.struct name params)) traits c
      (addHandle (some (.struct name params)) traits c) := by
  cases hcompile : compileDestructor (some (.struct name params)) none with
  | error fault =>
      rw [addHandle, run_bind_of_error (addDestructor_of_error hcompile c)]
      refine .refused _ fun name' params' hasked hnamed => ?_
      cases hasked
      obtain ⟨w, hw⟩ := exists_compileDestructor_iff.mpr hnamed
      rw [hcompile] at hw
      cases hw
  | ok w =>
      have hnamed := exists_compileDestructor_iff.mp ⟨w, hcompile⟩
      have hsymbol : w.signature.name = Name.baseName name ++ "_free" :=
        congrArg Signature.name (signature_of_compileDestructor hcompile)
      obtain ⟨functions, rest, hsources, heq, hrest⟩ := exists_makes_functions hnamed traits
      have hdestructor := exportOutcome_addDestructor hcompile c
      rw [heq]
      cases hresult : addDestructor name params c with
      | error fault c' =>
          rw [hresult] at hdestructor
          rw [run_bind_of_error hresult]
          cases hdestructor with
          | taken previous hlookup =>
              refine .refused _ fun name' params' hasked _ => ?_
              cases hasked
              by_contra hfree
              rw [← hsymbol, ← Assoc.lookup_eq_none_iff] at hfree
              exact absurd (hlookup.symm.trans hfree) (Option.some_ne_none _)
      | ok _ c' =>
          rw [hresult] at hdestructor
          rw [run_bind hresult]
          cases hdestructor with
          | made hfresh hgrown =>
              refine .of_makes hfresh hgrown ?_ (hrest c')
              rw [List.map_cons, hsources, handleExports]

lemma handleOutcome_addHandle (t : Option BoundaryType) (traits : List DerivedTrait) (c : Crate) :
    HandleOutcome t traits c (addHandle t traits c) := by
  cases t with
  | none => exact .refused _ nofun
  | some t =>
      cases t with
      | struct name params => exact handleOutcome_struct name params traits c
      | _ => exact .refused _ nofun

/-- **A handle may be left half registered.** The registration of a handle ends in one of three
ways: it is refused and the crate is as it was, or everything is exported, or it fails behind the
destructor and what was exported stays. The last comes about exactly if the symbol of the
destructor is free and that of a trait is taken; then the same handle is refused from there on,
whatever its traits. -/
theorem handle_abandoned_iff (t : Option BoundaryType) (traits : List DerivedTrait) (c : Crate) :
    HandleOutcome t traits c (addHandle t traits c) ∧
      ((∃ fault c', addHandle t traits c = .error fault c' ∧ c' ≠ c) ↔
        ∃ name params, t = some (.struct name params) ∧ (BoundaryType.struct name params).Named ∧
          Name.baseName name ++ "_free" ∉ c.symbols.map Prod.fst ∧
          ∃ r ∈ DerivedTrait.exported traits,
            (r.function (.struct name params)).symbol ∈ c.symbols.map Prod.fst) ∧
      ∀ fault c', addHandle t traits c = .error fault c' → c' ≠ c →
        ∀ traits', ∃ fault', addHandle t traits' c' = .error fault' c' := by
  have houtcome := handleOutcome_addHandle t traits c
  refine ⟨houtcome, ⟨?_, ?_⟩, ?_⟩
  · rintro ⟨fault, c', hresult, hchanged⟩
    rw [hresult] at houtcome
    exact houtcome.exists_taken hchanged
  · rintro ⟨name, params, rfl, hnamed, hfree, r, hr, htaken⟩
    exact houtcome.exists_ne_of_taken hnamed hfree hr htaken
  · intro fault c' hresult hchanged traits'
    rw [hresult] at houtcome
    obtain ⟨name, params, rfl, hclaimed⟩ := houtcome.destructor_claimed hchanged
    exact (handleOutcome_addHandle _ traits' c').exists_eq_error hclaimed

/-- A function is exported under the symbol of a trait, and then the handle is registered. -/
theorem pool_left_half_registered :
    let c := (Crate.new "native" {} {}).runAll
      [.function { funcName := "make", exportName := some "Pool_default" }]
    c.signatures.map Signature.name = ["Pool_default"] ∧ ∃ fault c',
      addHandle (some (.struct "Pool" [])) [.default] c = .error fault c' ∧
        fault.message = "Exported symbol 'Pool_default' for 'default' already used by 'make'; " ++
          "pass an extern_name" ∧
        c'.signatures.map Signature.name = ["Pool_default", "Pool_free"] ∧
        c'.emitter.lines ≠ c.emitter.lines := by
  refine ⟨rfl, _, _, rfl, rfl, rfl, ?_⟩
  decide

end Registering

end AbiBridge
