import AbiBridge.Proofs.Crate.HandleRegistration
import AbiBridge.Proofs.Wrapper.Scoping

/-!
What the call in a wrapper reaches.

A function of its own is called by its plain name. In the library this name may stand for something
else: for an export of the crate, the wrapper itself among them, or for a parameter of the wrapper.

* `Wrapper.callees`: the names that are called in a wrapper;
* `CallsNative`: none of them stands for an export or for a parameter;
* `Explained.runAll`: after any registrations, the exported symbols are those of the descriptors
  and those of the destructors of the handles that were asked for;
* `callsNative_iff`: the call reaches the native function exactly if its name is none of these, and
  no name of an argument, a length or an out-pointer.
-/

namespace AbiBridge

open Outcome

/-! ### Callees -/

/-- The name in front of the parenthesis of a call. -/
def callee? (text : String) : Option String :=
  if '(' ∈ text.toList then some (String.ofList (text.toList.takeWhile (· ≠ '('))) else none

/-- The names that are called on the way to the end of a wrapper. -/
def Wrapper.callees (w : Wrapper) : List String :=
  (w.success.filterMap Statement.evaluated?).filterMap callee?

lemma Name.IsName.ne_paren {name : String} (h : Name.IsName name) : ∀ c ∈ name.toList, c ≠ '(' := by
  rintro c hc rfl
  rcases h.isContinue_or_eq hc with h | h <;> revert h <;> decide

/-- A name alone is no call. -/
lemma callee?_of_isName {name : String} (h : Name.IsName name) : callee? name = none :=
  if_neg fun hmem => h.ne_paren '(' hmem rfl

/-- A call is one of the name that it begins with. -/
lemma callee?_append {name : String} (h : Name.IsName name) (args : String) :
    callee? (name ++ "(" ++ args) = some name := by
  have htext : (name ++ "(" ++ args).toList = name.toList ++ '(' :: args.toList := by
    rw [String.toList_append, String.toList_append, List.append_assoc]
    rfl
  have hname : ∀ c ∈ name.toList, decide (c ≠ '(') = true :=
    fun c hc => decide_eq_true (h.ne_paren c hc)
  have hmem : '(' ∈ (name ++ "(" ++ args).toList := by
    rw [htext]
    exact List.mem_append_right _ List.mem_cons_self
  rw [callee?, if_pos hmem, htext, List.takeWhile_append_of_pos hname,
    List.takeWhile_cons_of_neg (by decide), List.append_nil, String.ofList_toList]

namespace Descriptor

variable {d : Descriptor}

/-- A function without an owner is called by its plain name. -/
lemma callee?_of_invocation (hd : d.Acceptable) (howner : d.owner = none) {args : List String}
    {call : String} (h : d.invocation args = .ok call) : callee? call = some d.funcName := by
  have hreceiver : ¬d.hasReceiver = true := fun hreceiver => hd.receiver hreceiver howner
  rw [invocation, if_neg hreceiver, howner, pure_eq_ok] at h
  rw [← h, String.append_assoc]
  exact callee?_append hd.funcName _

/-- The names that the out-pointers of a result take up. -/
def outNames (d : Descriptor) : List String :=
  match d.ret with
  | none => []
  | some (.primitive _) => if d.fallible then [resultName] else []
  | some (.sequence _) => [resultName, resultLengthName]
  | some _ => [resultName]

end Descriptor

lemma OutRow.map_name_eq {d : Descriptor} {ps : List Parameter} (h : OutRow d.fallible d.ret ps) :
    ps.map Parameter.name = d.outNames := by
  rw [Descriptor.outNames.eq_def]
  generalize d.ret = ret at h
  cases h with
  | none hdirect =>
      cases ret with
      | none => rfl
      | some t =>
          obtain ⟨hfallible, name, rfl⟩ := hdirect t rfl
          rw [hfallible]
          rfl
  | @pointer t scalar hthrough hrun =>
      cases t with
      | primitive name =>
          have hfallible : d.fallible = true :=
            hthrough.resolve_right fun hne => hne name rfl
          rw [hfallible]
          rfl
      | sequence elem => cases hrun
      | _ => rfl
  | run elem scalar => rfl

namespace Assembly

variable {d : Descriptor} (a : Assembly d)

/-- In the wrapper of a function without an owner, the function is called and nothing else. -/
lemma callees_eq (hd : d.Acceptable) (howner : d.owner = none) :
    a.wrapper.callees = [d.funcName] := by
  have hbefore : (a.before.filterMap Statement.evaluated?).filterMap callee? = [] := by
    refine List.filterMap_eq_nil_iff.mpr fun e he => ?_
    obtain ⟨s, hs, he⟩ := List.mem_filterMap.mp he
    exact callee?_of_isName (a.isName_of_mem_before hd hs he)
  have hafter : a.afterwards.filterMap Statement.evaluated? = [] := by
    refine List.filterMap_eq_nil_iff.mpr fun s hs => Option.eq_none_iff_forall_ne_some.mpr ?_
    intro e he
    have hquiet := a.onlyOf_afterwards.evaluates_eq_false (by simp) (by simp) e s hs
    rw [Statement.evaluates, he] at hquiet
    exact absurd (beq_self_eq_true (some e)) (Bool.eq_false_iff.mp hquiet)
  have hcall : a.callStatement.evaluated? = some a.call := eq_of_beq a.evaluates_callStatement
  rw [Wrapper.callees, a.success_eq, List.filterMap_append, List.filterMap_append, hbefore,
    List.nil_append, List.filterMap_cons_some hcall, hafter,
    List.filterMap_cons_some (Descriptor.callee?_of_invocation hd howner a.call_eq),
    List.filterMap_nil]

/-- Its parameters are the arguments, the lengths beside them and the out-pointers. -/
lemma map_name_params (hd : d.Acceptable) (howner : d.owner = none) :
    a.params.map Parameter.name = d.args.flatMap Descriptor.slotNames ++ d.outNames := by
  have hreceiver : ¬d.hasReceiver = true := fun hreceiver => hd.receiver hreceiver howner
  obtain ⟨args, outs, hparams, hargs, houts⟩ := exists_rows a.params_eq
  rw [Descriptor.map_name_eq hparams hargs, if_neg hreceiver, List.nil_append, houts.map_name_eq]

end Assembly

/-! ### Where symbols come from -/

/-- A registration asks for a handle whose destructor has the given name. -/
inductive Registration.Destroys : Registration → String → Prop where
  | handle {name : String} {params : List BoundaryType} (traits : List DerivedTrait)
      (named : (BoundaryType.struct name params).Named) :
      Destroys (.handle (some (.struct name params)) traits) (Name.baseName name ++ "_free")

/-- The exported symbols are those of the descriptors, and those of the destructors of the handles
that were asked for, whether or not the registration came to an end. -/
def Explained (calls : List Registration) (c : Crate) : Prop :=
  ∀ n, n ∈ c.symbols.map Prod.fst ↔
    (∃ d ∈ c.descriptors, d.symbol = n) ∨ ∃ call ∈ calls, call.Destroys n

namespace Explained

variable {calls : List Registration} {call : Registration} {c c' : Crate} {exports : List Exported}

/-- A registration that makes some exports, or none. -/
lemma add (h : Explained calls c)
    (hsymbols : c'.symbols.map Prod.fst = c.symbols.map Prod.fst ++ exports.map Exported.symbol)
    (hdescriptors : c'.descriptors =
      c.descriptors ++ exports.filterMap fun x => x.source.descriptor?)
    (hexports : ∀ x ∈ exports, x.source.descriptor? = none → call.Destroys x.symbol)
    (hcall : ∀ n, call.Destroys n → n ∈ c'.symbols.map Prod.fst) :
    Explained (calls ++ [call]) c' := by
  intro n
  constructor
  · intro hn
    rw [hsymbols, List.mem_append] at hn
    rw [hdescriptors]
    rcases hn with hn | hn
    · rcases (h n).mp hn with ⟨d, hd, hsymbol⟩ | ⟨other, hother, hn⟩
      · exact Or.inl ⟨d, List.mem_append_left _ hd, hsymbol⟩
      · exact Or.inr ⟨other, List.mem_append_left _ hother, hn⟩
    · obtain ⟨x, hx, rfl⟩ := List.mem_map.mp hn
      cases hdescriptor : x.source.descriptor? with
      | none =>
          exact Or.inr ⟨call, List.mem_append_right _ (List.mem_singleton_self _),
            hexports x hx hdescriptor⟩
      | some d =>
          have hd : d ∈ exports.filterMap fun x => x.source.descriptor? :=
            List.mem_filterMap.mpr ⟨x, hx, hdescriptor⟩
          have hsymbol : d.symbol = x.symbol := (x.symbol_eq_of_descriptor? hdescriptor).symm
          exact Or.inl ⟨d, List.mem_append_right _ hd, hsymbol⟩
  · intro hn
    have hold : n ∈ c.symbols.map Prod.fst → n ∈ c'.symbols.map Prod.fst := by
      intro hold
      rw [hsymbols]
      exact List.mem_append_left _ hold
    rcases hn with ⟨d, hd, rfl⟩ | ⟨other, hother, hn⟩
    · rw [hdescriptors] at hd
      rcases List.mem_append.mp hd with hd | hd
      · exact hold ((h _).mpr (Or.inl ⟨d, hd, rfl⟩))
      · obtain ⟨x, hx, hdescriptor⟩ := List.mem_filterMap.mp hd
        rw [hsymbols, ← x.symbol_eq_of_descriptor? hdescriptor]
        exact List.mem_append_right _ (List.mem_map_of_mem hx)
    · rcases List.mem_append.mp hother with hother | hother
      · exact hold ((h n).mpr (Or.inr ⟨other, hother, hn⟩))
      · rw [List.mem_singleton.mp hother] at hn
        exact hcall n hn

/-- A registration that changes neither record, and asks for no destructor that is not there. -/
lemma of_eq (h : Explained calls c) (hsymbols : c'.symbols = c.symbols)
    (hdescriptors : c'.descriptors = c.descriptors)
    (hcall : ∀ n, call.Destroys n → n ∈ c.symbols.map Prod.fst) :
    Explained (calls ++ [call]) c' := by
  have hnone : ∀ x ∈ ([] : List Exported), x.source.descriptor? = none → call.Destroys x.symbol :=
    fun _ hx => absurd hx List.not_mem_nil
  refine h.add ?_ ?_ hnone (hsymbols ▸ hcall)
  · rw [hsymbols, List.map_nil, List.append_nil]
  · rw [hdescriptors, List.filterMap_nil, List.append_nil]

/-- A function, whether or not it is registered. -/
lemma of_functionOutcome {described : Option Descriptor} {m : Registering Descriptor}
    (h : Explained calls c) (houtcome : FunctionOutcome described c (m c))
    (hcall : ∀ n, ¬call.Destroys n) : Explained (calls ++ [call]) (after m c) := by
  rw [after]
  generalize m c = result at houtcome
  cases houtcome with
  | refused fault _ => exact h.of_eq rfl rfl fun n hn => absurd hn (hcall n)
  | registered hasked hcompiled hfresh hgrown =>
      refine h.add hgrown.map_fst_symbols hgrown.descriptors (fun x hx hnone => ?_)
        fun n hn => absurd hn (hcall n)
      rw [List.mem_singleton.mp hx] at hnone
      cases hnone

/-- The destructor and some of the functions of a handle. -/
lemma of_front {name : String} {params : List BoundaryType} {traits : List DerivedTrait}
    {front back : List Exported} (h : Explained calls c) (hgrown : Extends c front c')
    (hsources : (front ++ back).map Exported.source = handleExports name params traits)
    (hbegun : front ≠ []) :
    Explained (calls ++ [.handle (some (.struct name params)) traits]) c' := by
  obtain ⟨hnamed, y, hy, hsymbol⟩ := exists_destructor_mem hsources hbegun
  refine h.add hgrown.map_fst_symbols hgrown.descriptors (fun x hx hnone => ?_) fun n hn => ?_
  · have hx : x.source ∈ handleExports name params traits :=
      hsources ▸ List.mem_map_of_mem (List.mem_append_left _ hx)
    rcases List.mem_cons.mp hx with hsource | hx
    · rw [x.symbol_eq, hsource]
      exact .handle traits hnamed
    · obtain ⟨r, -, hsource⟩ := List.mem_map.mp hx
      rw [← hsource] at hnone
      cases hnone
  · cases hn
    rw [hgrown.map_fst_symbols, ← hsymbol]
    exact List.mem_append_right _ (List.mem_map_of_mem hy)

lemma of_handleOutcome {t : Option BoundaryType} {traits : List DerivedTrait}
    {m : Registering Unit} (h : Explained calls c) (houtcome : HandleOutcome t traits c (m c)) :
    Explained (calls ++ [.handle t traits]) (after m c) := by
  rw [after]
  generalize m c = result at houtcome
  cases houtcome with
  | refused fault hreason =>
      refine h.of_eq rfl rfl fun n hn => ?_
      cases hn with
      | handle _ hnamed => exact hreason _ _ rfl hnamed
  | @registered name params exports c' hasked hsources hfresh hgrown =>
      subst hasked
      have hbegun : exports ≠ [] := by
        rintro rfl
        cases hsources
      rw [← List.append_nil exports] at hsources
      exact h.of_front hgrown hsources hbegun
  | abandoned front x back hasked hsources hbegun hfresh htaken hgrown =>
      subst hasked
      exact h.of_front hgrown hsources hbegun

/-- One registration, whether or not it fails. -/
lemma perform (h : Explained calls c) (call : Registration) :
    Explained (calls ++ [call]) (after call.perform c) := by
  cases call with
  | handle t traits => exact h.of_handleOutcome (Registering.handleOutcome_addHandle t traits c)
  | method owner d =>
      rw [Registration.perform, after_discard]
      refine h.of_functionOutcome (Registering.functionOutcome_addMethod owner d c) fun n hn => ?_
      cases hn
  | function d =>
      rw [Registration.perform, after_discard]
      refine h.of_functionOutcome (Registering.functionOutcome_register d.alone c) fun n hn => ?_
      cases hn
  | dependency name options =>
      rw [Registration.perform, Registering.addDependency]
      have hcall : ∀ n, ¬(Registration.dependency name options).Destroys n := by
        intro n hn
        cases hn
      cases Registering.dependencyEntry name options <;>
        exact h.of_eq rfl rfl fun n hn => absurd hn (hcall n)
  | path text =>
      refine h.of_eq rfl rfl fun n hn => ?_
      cases hn

/-- A list of registrations, some of which may fail. -/
lemma runAll (h : Explained calls c) (more : List Registration) :
    Explained (calls ++ more) (c.runAll more) := by
  induction more generalizing calls c with
  | nil =>
      rw [List.append_nil]
      exact h
  | cons call more ih =>
      have hrest := ih (h.perform call)
      rw [List.append_assoc, List.singleton_append] at hrest
      exact hrest

end Explained

lemma explained_new (package : String) (output : Path) (settings : Settings) :
    Explained [] (Crate.new package output settings) := by
  intro n
  constructor
  · exact fun hn => absurd hn List.not_mem_nil
  · rintro (⟨d, hd, -⟩ | ⟨call, hcall, -⟩)
    · exact absurd hd List.not_mem_nil
    · exact absurd hcall List.not_mem_nil

/-! ### What is called -/

/-- The calls in a wrapper reach the native functions: no callee stands for an export of the crate
or for a parameter of the wrapper. -/
structure CallsNative (c : Crate) (w : Wrapper) : Prop where
  notExported : ∀ name ∈ w.callees, name ∉ c.signatures.map Signature.name
  notParameter : ∀ name ∈ w.callees, name ∉ w.signature.params.map Parameter.name

/-- What the wrapper of a function without an owner calls, in a crate that was made by `calls`. -/
structure CallOf (calls : List Registration) (c : Crate) (d : Descriptor) (w : Wrapper) :
    Prop where
  exported : w.signature ∈ c.signatures
  callees : w.callees = [d.funcName]
  /-- It calls itself if no other symbol was asked for. -/
  itself : w.signature.name = d.funcName ↔ d.exportName = none ∨ d.exportName = some d.funcName
  /-- It calls the native function if nothing else has its name. -/
  native : CallsNative c w ↔ (∀ other ∈ c.descriptors, other.symbol ≠ d.funcName) ∧
    (∀ call ∈ calls, ¬call.Destroys d.funcName) ∧
      d.funcName ∉ d.args.flatMap Descriptor.slotNames ++ d.outNames

/-- A function without an owner has its own name for a symbol, unless another one is asked for. -/
lemma Descriptor.symbol_eq_funcName_iff {d : Descriptor} (hd : d.Acceptable)
    (howner : d.owner = none) :
    d.symbol = d.funcName ↔ d.exportName = none ∨ d.exportName = some d.funcName := by
  have hdefault : d.defaultSymbol = d.funcName := by rw [defaultSymbol, howner]
  cases hexport : d.exportName with
  | none =>
      rw [symbol, hexport]
      exact ⟨fun _ => Or.inl rfl, fun _ => hdefault⟩
  | some name =>
      have hname : name ≠ "" := by
        rintro rfl
        exact absurd (hd.exportName "" hexport).identifier (by decide)
      rw [symbol, hexport, Option.some.injEq]
      dsimp only
      rw [if_neg hname]
      exact ⟨Or.inr, fun h => h.resolve_left (Option.some_ne_none name)⟩

/-- **Capture.** After any registrations, every function without an owner is exported by a wrapper
that calls it by its plain name. The call reaches the native function if and only if no exported
function has this name for a symbol, no destructor of a handle that was asked for is called so, and
no argument, length or out-pointer of the wrapper is. The wrapper calls itself where no symbol, or
the name of the function, is asked for. -/
theorem callsNative_iff (package : String) (output : Path) (settings : Settings)
    (calls : List Registration) (c : Crate)
    (hc : c = (Crate.new package output settings).runAll calls) (d : Descriptor)
    (hd : d ∈ c.descriptors) (howner : d.owner = none) :
    ∃ w, d.compile = .ok w ∧ CallOf calls c d w := by
  obtain ⟨exports, hrecords⟩ := recorded_runAll (recorded_new package output settings) calls
  have hexplained := (explained_new package output settings).runAll calls
  rw [← hc] at hrecords hexplained
  have hnames : c.signatures.map Signature.name = c.symbols.map Prod.fst := by
    rw [hrecords.signatures, hrecords.symbols, List.map_map, List.map_map]
    rfl
  have hmem : d ∈ exports.filterMap fun x => x.source.descriptor? := hrecords.descriptors ▸ hd
  obtain ⟨x, hx, hdescriptor⟩ := List.mem_filterMap.mp hmem
  have hcompile := x.compile_eq_of_descriptor? hdescriptor
  have hacceptable := Descriptor.acceptable_of_compile hcompile
  obtain ⟨a, ha⟩ := Descriptor.exists_assembly hcompile
  have hcallees : a.wrapper.callees = [d.funcName] := a.callees_eq hacceptable howner
  have hparams : a.wrapper.signature.params.map Parameter.name =
      d.args.flatMap Descriptor.slotNames ++ d.outNames := a.map_name_params hacceptable howner
  refine ⟨a.wrapper, ha ▸ hcompile, ?_, hcallees, ?_, ?_⟩
  · rw [hrecords.signatures, ← ha]
    exact List.mem_map_of_mem hx
  · exact Descriptor.symbol_eq_funcName_iff hacceptable howner
  · constructor
    · rintro ⟨hexported, hparameter⟩
      rw [hcallees, List.forall_mem_singleton] at hexported hparameter
      rw [hnames, hexplained d.funcName, not_or] at hexported
      rw [hparams] at hparameter
      exact ⟨fun other hother heq => hexported.1 ⟨other, hother, heq⟩,
        fun call hcall hn => hexported.2 ⟨call, hcall, hn⟩, hparameter⟩
    · rintro ⟨hfunctions, hdestructors, hparameter⟩
      constructor
      · rw [hcallees, List.forall_mem_singleton, hnames, hexplained d.funcName]
        rintro (⟨other, hother, heq⟩ | ⟨call, hcall, hn⟩)
        · exact hfunctions other hother heq
        · exact hdestructors call hcall hn
      · rw [hcallees, List.forall_mem_singleton, hparams]
        exact hparameter

/-- A function over a run of bytes, for which the given symbol is asked. -/
def Descriptor.overBytes (funcName argName : String) (exportName : Option String) : Descriptor where
  funcName
  args := [(argName, .sequence (.primitive "u8"))]
  ret := some (.primitive "usize")
  exportName

theorem callsNative_checksum :
    let d := Descriptor.overBytes "checksum" "data" (some "pool_checksum")
    let c := (Crate.new "native" {} {}).runAll
      [.handle (some (.struct "Pool" [])) [.clone], .function d]
    d ∈ c.descriptors ∧ d.owner = none ∧ ∃ w, d.compile = .ok w ∧ CallsNative c w := by
  intro d c
  have hd : d ∈ c.descriptors := by decide +revert
  obtain ⟨w, hw, hcall⟩ := callsNative_iff "native" {} {} _ c rfl d hd rfl
  refine ⟨hd, rfl, w, hw, hcall.native.mpr ⟨by decide, fun call hmem hn => ?_, by decide⟩⟩
  have hname : d.funcName ≠ Name.baseName "Pool" ++ "_free" := by decide
  generalize d.funcName = n at hn hname
  rcases List.mem_cons.mp hmem with rfl | hmem
  · cases hn
    exact hname rfl
  · rw [List.mem_singleton.mp hmem] at hn
    cases hn

/-- One wrapper calls itself, and another one its own parameter. -/
theorem capture_checksum_level : ∃ c w w',
    c = (Crate.new "native" {} {}).runAll [.function (.overBytes "checksum" "data" none),
      .function (.overBytes "level" "level" (some "set_level"))] ∧
    c.descriptors = [.overBytes "checksum" "data" none,
      .overBytes "level" "level" (some "set_level")] ∧
    (Descriptor.overBytes "checksum" "data" none).compile = .ok w ∧
    (Descriptor.overBytes "level" "level" (some "set_level")).compile = .ok w' ∧
    c.signatures = [w.signature, w'.signature] ∧
      w.callees = ["checksum"] ∧ w.signature.name = "checksum" ∧
      w'.callees = ["level"] ∧ w'.signature.params.map Parameter.name = ["level", "level_len"] := by
  refine ⟨_, _, _, rfl, rfl, rfl, rfl, rfl, ?_⟩
  exact ⟨by decide, rfl, by decide, rfl⟩

end AbiBridge
