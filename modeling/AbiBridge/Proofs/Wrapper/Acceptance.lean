import AbiBridge.Proofs.Boundary.Named
import AbiBridge.Proofs.Wrapper.Assembly
import Mathlib.Data.List.Nodup

/-!
Which descriptors have a wrapper.

`Descriptor.Acceptable` says it without the order in which the checks are made: the names are free
for use, the parameters have pairwise distinct names, and every type is named and stands in a
position that it may have.

* `checkArgumentNames_eq_ok_iff`: the walk that remembers the names seen so far accepts the
  arguments whose slots are pairwise distinct;
* `validate_eq_ok_iff`: the checks accept exactly the acceptable descriptors;
* `Acceptable.exists_wrapper`: whatever they accept has a wrapper, so no step behind them fails;
* `exists_compile_iff_acceptable`: the two together;
* `exists_compileDestructor_iff`: a handle has a destructor if it is one to a named struct.
-/

namespace AbiBridge

open Outcome

/-! ### Types in their positions -/

namespace BoundaryType

/-- A scalar or a struct. -/
inductive IsSimple : BoundaryType → Prop where
  | primitive (name : String) : IsSimple (.primitive name)
  | struct (name : String) (params : List BoundaryType) : IsSimple (.struct name params)

/-- The types that an argument may have. -/
inductive IsArgument : BoundaryType → Prop where
  | simple {t : BoundaryType} (simple : t.IsSimple) : IsArgument t
  | sharedRef (name : String) (params : List BoundaryType) :
      IsArgument (.sharedRef (.struct name params))
  | mutRef (name : String) (params : List BoundaryType) :
      IsArgument (.mutRef (.struct name params))
  | sequence (name : String) : IsArgument (.sequence (.primitive name))
  | enum (name : String) {variants : List String} (nonempty : variants ≠ []) :
      IsArgument (.enum name variants)

/-- The types that a result may have; a run needs the result protocol. -/
inductive IsResult (fallible : Bool) : BoundaryType → Prop where
  | simple {t : BoundaryType} (simple : t.IsSimple) : IsResult fallible t
  | sharedRef {inner : BoundaryType} (simple : inner.IsSimple) :
      IsResult fallible (.sharedRef inner)
  | mutRef {inner : BoundaryType} (simple : inner.IsSimple) : IsResult fallible (.mutRef inner)
  | sequence {elem : BoundaryType} (protocol : fallible = true) (simple : elem.IsSimple) :
      IsResult fallible (.sequence elem)

lemma checkArgument_eq_ok_iff {name : String} {t : BoundaryType} :
    t.checkArgument name = .ok () ↔ t.IsArgument := by
  constructor
  · intro h
    obtain ⟨_, _, h⟩ := bind_eq_ok.mp h
    cases t with
    | primitive s => exact .simple (.primitive s)
    | struct s ps => exact .simple (.struct s ps)
    | sharedRef inner =>
        cases inner with
        | struct s ps => exact .sharedRef s ps
        | _ => cases h
    | mutRef inner =>
        cases inner with
        | struct s ps => exact .mutRef s ps
        | _ => cases h
    | sequence elem =>
        cases elem with
        | primitive s => exact .sequence s
        | _ => cases h
    | enum s vs =>
        cases vs with
        | nil => cases h
        | cons v vs => exact .enum s (List.cons_ne_nil v vs)
    | unknown => cases h
  · intro h
    cases h with
    | simple hsimple => cases hsimple <;> rfl
    | sharedRef s ps => rfl
    | mutRef s ps => rfl
    | sequence s => rfl
    | @enum s vs hvs =>
        cases vs with
        | nil => exact absurd rfl hvs
        | cons v vs => rfl

lemma checkResult_eq_ok_iff {fallible : Bool} {t : BoundaryType} :
    t.checkResult fallible = .ok () ↔ t.IsResult fallible := by
  constructor
  · intro h
    obtain ⟨_, _, h⟩ := bind_eq_ok.mp h
    cases t with
    | primitive s => exact .simple (.primitive s)
    | struct s ps => exact .simple (.struct s ps)
    | sharedRef inner =>
        cases inner with
        | primitive s => exact .sharedRef (.primitive s)
        | struct s ps => exact .sharedRef (.struct s ps)
        | _ => cases h
    | mutRef inner =>
        cases inner with
        | primitive s => exact .mutRef (.primitive s)
        | struct s ps => exact .mutRef (.struct s ps)
        | _ => cases h
    | sequence elem =>
        cases fallible with
        | false => cases h
        | true =>
            cases elem with
            | primitive s => exact .sequence rfl (.primitive s)
            | struct s ps => exact .sequence rfl (.struct s ps)
            | _ => cases h
    | enum s vs => cases h
    | unknown => cases h
  · intro h
    cases h with
    | simple hsimple => cases hsimple <;> rfl
    | sharedRef hsimple => cases hsimple <;> rfl
    | mutRef hsimple => cases hsimple <;> rfl
    | sequence hprotocol hsimple =>
        subst hprotocol
        cases hsimple <;> rfl

end BoundaryType

namespace Descriptor

/-! ### Names of parameters -/

/-- The names that an argument takes up: its own, and that of the length beside a run. -/
def slotNames : String × BoundaryType → List String
  | (name, .sequence _) => [name, companionName name]
  | (name, _) => [name]

/-- A length is never called like the argument it goes with. -/
lemma companionName_ne (name : String) : companionName name ≠ name := by
  intro h
  have hlength := congrArg String.length h
  rw [companionName, String.length_append] at hlength
  have hsuffix : "_len".length = 4 := by decide
  omega

/-- The length beside a run ends as all of them do. -/
lemma companionName_ne_of_getLast? {name other : String}
    (h : other.toList.getLast? ≠ some 'n') : companionName name ≠ other := by
  intro heq
  have hsuffix : "_len".toList.getLast? = some 'n' := by decide
  rw [← heq, companionName, String.toList_append, List.getLast?_append, hsuffix] at h
  exact h rfl

/-- One step of the walk over the names: the argument's own slots are new. -/
lemma checkArgumentNames_cons_eq_ok_iff {seen : List String} {a : String × BoundaryType}
    {args : List (String × BoundaryType)} :
    checkArgumentNames seen (a :: args) = .ok () ↔
      (Name.IsName a.1 ∧ a.1 ∉ reservedNames) ∧ (∀ n ∈ slotNames a, n ∉ seen) ∧
        checkArgumentNames ((slotNames a).reverse ++ seen) args = .ok () := by
  obtain ⟨name, t⟩ := a
  have hhead : ∀ {x : Except DescriptorFault Unit},
      ((Name.check .argumentName name).mapError DescriptorFault.illegalName >>= fun _ => x) =
          .ok () ↔ Name.IsName name ∧ x = .ok () := fun {x} => by
    rw [bind_unit_eq_ok, mapError_eq_ok, Name.check_eq_ok_iff]
  cases t with
  | sequence elem =>
      conv_lhs => unfold checkArgumentNames
      rw [hhead, guard_eq_ok, guard_eq_ok, guard_eq_ok]
      simp only [List.contains_iff_mem, slotNames, List.forall_mem_cons, List.reverse_cons,
        List.reverse_nil, List.nil_append, List.cons_append, and_assoc, List.not_mem_nil,
        false_imp_iff, implies_true, true_and]
  | _ =>
      conv_lhs => unfold checkArgumentNames
      rw [hhead, guard_eq_ok, guard_eq_ok]
      simp only [List.contains_iff_mem, slotNames, List.forall_mem_cons, List.reverse_cons,
        List.reverse_nil, List.nil_append, List.cons_append, and_assoc, List.not_mem_nil,
        false_imp_iff, implies_true, true_and]

lemma nodup_slotNames (a : String × BoundaryType) : (slotNames a).Nodup := by
  obtain ⟨name, t⟩ := a
  cases t with
  | sequence elem => simp [slotNames, (companionName_ne name).symm]
  | _ => exact List.nodup_singleton name

/-- The walk that remembers the names seen so far accepts the arguments whose slots are pairwise
distinct and new. -/
theorem checkArgumentNames_eq_ok_iff {seen : List String} {args : List (String × BoundaryType)} :
    checkArgumentNames seen args = .ok () ↔
      (∀ a ∈ args, Name.IsName a.1 ∧ a.1 ∉ reservedNames) ∧ (args.flatMap slotNames).Nodup ∧
        ∀ n ∈ args.flatMap slotNames, n ∉ seen := by
  induction args generalizing seen with
  | nil =>
      exact ⟨fun _ => ⟨fun _ h => absurd h List.not_mem_nil, List.nodup_nil,
        fun _ h => absurd h List.not_mem_nil⟩, fun _ => rfl⟩
  | cons a args ih =>
      rw [checkArgumentNames_cons_eq_ok_iff, ih, List.forall_mem_cons, List.flatMap_cons,
        List.nodup_append', List.forall_mem_append]
      simp only [List.mem_append, List.mem_reverse, not_or]
      constructor
      · rintro ⟨hname, hnew, hnames, hnodup, hrest⟩
        refine ⟨⟨hname, hnames⟩, ⟨nodup_slotNames a, hnodup, ?_⟩, hnew, fun n hn => (hrest n hn).2⟩
        exact fun n hn hn' => (hrest n hn').1 hn
      · rintro ⟨⟨hname, hnames⟩, ⟨-, hnodup, hdisjoint⟩, hnew, hrest⟩
        exact ⟨hname, hnew, hnames, hnodup, fun n hn => ⟨fun hn' => hdisjoint hn' hn, hrest n hn⟩⟩

/-! ### A whole descriptor -/

/-- The descriptors that have a wrapper. -/
structure Acceptable (d : Descriptor) : Prop where
  funcName : Name.IsName d.funcName
  exportName : ∀ name ∈ d.exportName, Name.IsName name
  /-- The owner, if there is one, is a named struct. -/
  owner : ∀ t ∈ d.owner, (∃ name params, t = .struct name params) ∧ t.Named
  receiver : d.hasReceiver = true → d.owner ≠ none
  argNames : ∀ a ∈ d.args, Name.IsName a.1 ∧ a.1 ∉ reservedNames
  /-- Arguments and the lengths beside them have pairwise distinct names. -/
  distinct : (d.args.flatMap slotNames).Nodup
  argTypes : ∀ a ∈ d.args, a.2.Named ∧ a.2.IsArgument
  result : ∀ t ∈ d.ret, t.Named ∧ t.IsResult d.fallible

/-- A guard against the placeholder. -/
lemma mentionsSelf_guard_eq_ok_iff {t : BoundaryType} {fault : DescriptorFault}
    {f : Unit → Except DescriptorFault Unit} {x : Except DescriptorFault Unit} :
    (t.mentionsSelf.mapError DescriptorFault.illegalType >>= fun b =>
        if b = true then throw fault >>= f else x) = .ok () ↔
      t.mentionsSelf = .ok false ∧ x = .ok () := by
  simp only [bind_eq_ok, mapError_eq_ok, guard_eq_ok, Bool.not_eq_true]
  constructor
  · rintro ⟨b, hb, rfl, hx⟩
    exact ⟨hb, hx⟩
  · exact fun h => ⟨false, h.1, rfl, h.2⟩

lemma checkArgument_eq_ok_iff {name : String} {t : BoundaryType} :
    checkArgument name t = .ok () ↔ t.Named ∧ t.IsArgument := by
  rw [checkArgument]
  refine mentionsSelf_guard_eq_ok_iff.trans ?_
  rw [bind_unit_eq_ok, mapError_eq_ok, BoundaryType.checkArgument_eq_ok_iff,
    BoundaryType.named_iff, and_assoc]

lemma checkResult_eq_ok_iff {func : String} {fallible : Bool} {t : BoundaryType} :
    checkResult func fallible t = .ok () ↔ t.Named ∧ t.IsResult fallible := by
  rw [checkResult]
  refine mentionsSelf_guard_eq_ok_iff.trans ?_
  rw [bind_unit_eq_ok, mapError_eq_ok, BoundaryType.checkResult_eq_ok_iff,
    BoundaryType.named_iff, and_assoc]

lemma checkOwner_eq_ok_iff {d : Descriptor} :
    d.checkOwner = .ok () ↔
      (∀ t ∈ d.owner, (∃ name params, t = .struct name params) ∧ t.Named) ∧
        (d.hasReceiver = true → d.owner ≠ none) := by
  rw [checkOwner.eq_def]
  cases d.owner with
  | none =>
      rw [ite_throw_eq_ok]
      exact ⟨fun h => ⟨fun _ ht => (nomatch ht), fun hr => absurd hr h.1⟩,
        fun h => ⟨fun hr => h.2 hr rfl, rfl⟩⟩
  | some t =>
      cases t with
      | struct name params =>
          refine mentionsSelf_guard_eq_ok_iff.trans ?_
          rw [mapError_eq_ok, ← BoundaryType.named_iff]
          constructor
          · intro h
            refine ⟨fun t ht => ?_, fun _ => Option.some_ne_none _⟩
            cases ht
            exact ⟨⟨name, params, rfl⟩, h⟩
          · exact fun h => (h.1 _ rfl).2
      | _ =>
          constructor
          · exact fun h => (nomatch h)
          · intro h
            obtain ⟨⟨_, _, heq⟩, _⟩ := h.1 _ rfl
            cases heq

/-- The checks, one after the other, accept exactly the acceptable descriptors. -/
theorem validate_eq_ok_iff {d : Descriptor} : d.validate = .ok () ↔ d.Acceptable := by
  rw [validate, bind_unit_eq_ok, bind_unit_eq_ok, bind_unit_eq_ok, bind_unit_eq_ok,
    bind_unit_eq_ok, mapError_eq_ok, Name.check_eq_ok_iff, option_forM_eq_ok, checkOwner_eq_ok_iff,
    checkArgumentNames_eq_ok_iff, forM_eq_ok, option_forM_eq_ok]
  simp only [mapError_eq_ok, Name.check_eq_ok_iff, checkArgument_eq_ok_iff, checkResult_eq_ok_iff]
  constructor
  · rintro ⟨hfunc, hexport, ⟨howner, hreceiver⟩, ⟨hnames, hdistinct, -⟩, htypes, hresult⟩
    exact ⟨hfunc, hexport, howner, hreceiver, hnames, hdistinct, htypes, hresult⟩
  · intro h
    exact ⟨h.funcName, h.exportName, ⟨h.owner, h.receiver⟩,
      ⟨h.argNames, h.distinct, fun _ _ => List.not_mem_nil⟩, h.argTypes, h.result⟩

/-! ### Behind the checks -/

/-- The parameters of an argument depend on its encoding alone. -/
lemma exists_argumentParameters {name : String} {t : BoundaryType} (h : t.IsArgument) :
    ∃ params, argumentParameters name t = .ok params := by
  cases h with
  | simple hsimple => cases hsimple <;> exact ⟨_, rfl⟩
  | _ => exact ⟨_, rfl⟩

lemma exists_resultParameters {fallible : Bool} {ret : Option BoundaryType}
    (h : ∀ t ∈ ret, t.IsResult fallible) :
    ∃ params, resultParameters fallible ret = .ok params := by
  cases ret with
  | none => exact ⟨[], rfl⟩
  | some t =>
      cases h t rfl with
      | simple hsimple => cases hsimple <;> cases fallible <;> exact ⟨_, rfl⟩
      | sharedRef _ => exact ⟨_, rfl⟩
      | mutRef _ => exact ⟨_, rfl⟩
      | sequence _ hsimple => cases hsimple <;> exact ⟨_, rfl⟩

lemma exists_rebuild {name : String} {t : BoundaryType} (hnamed : t.Named)
    (h : t.IsArgument) : ∃ rebuilt, t.rebuild name = .ok rebuilt := by
  cases h with
  | simple hsimple =>
      cases hsimple with
      | primitive s => exact ⟨_, rfl⟩
      | struct s ps =>
          obtain ⟨text, htext⟩ := hnamed.exists_native
          exact ⟨_, by rw [BoundaryType.rebuild, htext]; rfl⟩
  | sharedRef s ps =>
      cases hnamed with
      | sharedRef hinner =>
          obtain ⟨text, htext⟩ := hinner.exists_native
          exact ⟨_, by rw [BoundaryType.rebuild, htext]; rfl⟩
  | mutRef s ps =>
      cases hnamed with
      | mutRef hinner =>
          obtain ⟨text, htext⟩ := hinner.exists_native
          exact ⟨_, by rw [BoundaryType.rebuild, htext]; rfl⟩
  | sequence s => exact ⟨_, rfl⟩
  | enum s _ => exact ⟨_, rfl⟩

lemma exists_storeResult {fallible : Bool} {ret : Option BoundaryType}
    (h : ∀ t ∈ ret, t.Named ∧ t.IsResult fallible) :
    ∃ stores, storeResult fallible ret = .ok stores := by
  cases ret with
  | none => exact ⟨[], rfl⟩
  | some t =>
      obtain ⟨hnamed, hresult⟩ := h t rfl
      cases hresult with
      | simple hsimple => cases hsimple <;> exact ⟨_, rfl⟩
      | sharedRef _ =>
          cases hnamed with
          | sharedRef hinner =>
              obtain ⟨text, htext⟩ := hinner.exists_native
              exact ⟨_, by rw [storeResult, htext]; rfl⟩
      | mutRef _ =>
          cases hnamed with
          | mutRef hinner =>
              obtain ⟨text, htext⟩ := hinner.exists_native
              exact ⟨_, by rw [storeResult, htext]; rfl⟩
      | sequence _ _ => exact ⟨_, rfl⟩

namespace Acceptable

variable {d : Descriptor}

lemma exists_parameters (h : d.Acceptable) : ∃ params, d.parameters = .ok params := by
  have hargs : ∀ a ∈ d.args, ∃ params, argumentParameters a.1 a.2 = .ok params :=
    fun a ha => exists_argumentParameters (h.argTypes a ha).2
  obtain ⟨args, hargs⟩ := exists_mapM_eq_ok hargs
  obtain ⟨result, hresult⟩ := exists_resultParameters fun t ht => (h.result t ht).2
  exact ⟨_, bind_eq_ok.mpr ⟨args, hargs, bind_eq_ok.mpr ⟨result, hresult, rfl⟩⟩⟩

lemma exists_rebuildReceiver (h : d.Acceptable) : ∃ rebuilt, d.rebuildReceiver = .ok rebuilt := by
  rw [rebuildReceiver.eq_def]
  cases howner : d.owner with
  | none => cases d.receiver <;> exact ⟨_, rfl⟩
  | some t =>
      obtain ⟨text, htext⟩ := (h.owner t howner).2.exists_native
      cases d.receiver with
      | none => exact ⟨_, rfl⟩
      | _ => exact ⟨_, bind_eq_ok.mpr ⟨text, htext, rfl⟩⟩

lemma exists_invocation (h : d.Acceptable) (args : List String) :
    ∃ call, d.invocation args = .ok call := by
  rw [invocation]
  by_cases hr : d.hasReceiver = true
  · exact ⟨_, if_pos hr⟩
  · simp only [if_neg hr]
    cases howner : d.owner with
    | none => exact ⟨_, rfl⟩
    | some t =>
        obtain ⟨⟨name, params, rfl⟩, hnamed⟩ := h.owner t howner
        cases hnamed with
        | struct _ _ hparams =>
            obtain ⟨texts, htexts⟩ :=
              BoundaryType.exists_nativeAll fun t ht => (hparams t ht).exists_native
            exact ⟨_, bind_eq_ok.mpr ⟨_, bind_eq_ok.mpr ⟨texts, htexts, rfl⟩, rfl⟩⟩

/-- Whatever the checks accept has a wrapper. -/
theorem exists_wrapper (h : d.Acceptable) : ∃ w, d.wrapper = .ok w := by
  obtain ⟨params, hparams⟩ := h.exists_parameters
  obtain ⟨receiver, hreceiver⟩ := h.exists_rebuildReceiver
  have hargs : ∀ a ∈ d.args, ∃ rebuilt, a.2.rebuild a.1 = .ok rebuilt :=
    fun a ha => exists_rebuild (h.argTypes a ha).1 (h.argTypes a ha).2
  obtain ⟨args, hargs⟩ := exists_mapM_eq_ok hargs
  obtain ⟨call, hcall⟩ := h.exists_invocation (args.map Rebuilt.expression)
  obtain ⟨stores, hstores⟩ := exists_storeResult h.result
  exact ⟨_, wrapper_eq_ok_iff.mpr ⟨⟨params, receiver, args, call, stores, hparams, hreceiver,
    mapM_eq_ok.mp hargs, hcall, hstores⟩, rfl⟩⟩

end Acceptable

lemma compile_eq_ok_iff {d : Descriptor} {w : Wrapper} :
    d.compile = .ok w ↔ d.Acceptable ∧ d.wrapper = .ok w := by
  rw [compile, bind_unit_eq_ok, validate_eq_ok_iff, mapError_eq_ok]

lemma acceptable_of_compile {d : Descriptor} {w : Wrapper} (h : d.compile = .ok w) :
    d.Acceptable :=
  (compile_eq_ok_iff.mp h).1

lemma exists_assembly {d : Descriptor} {w : Wrapper} (h : d.compile = .ok w) :
    ∃ a : Assembly d, w = a.wrapper :=
  wrapper_eq_ok_iff.mp (compile_eq_ok_iff.mp h).2

/-- **Exact acceptance.** A descriptor has a wrapper if and only if it is acceptable: no order of
its parts matters, and nothing that fails is left behind the checks. -/
theorem exists_compile_iff_acceptable (d : Descriptor) :
    (∃ w, d.compile = .ok w) ↔ d.Acceptable := by
  constructor
  · exact fun ⟨_, h⟩ => acceptable_of_compile h
  · intro h
    obtain ⟨w, hw⟩ := h.exists_wrapper
    exact ⟨w, compile_eq_ok_iff.mpr ⟨h, hw⟩⟩

end Descriptor

/-! ### Destructors -/

/-- A handle has a destructor if it is one to a named struct. -/
theorem exists_compileDestructor_iff {name : String} {params : List BoundaryType} :
    (∃ w, compileDestructor (some (.struct name params)) none = .ok w) ↔
      (BoundaryType.struct name params).Named := by
  rw [BoundaryType.named_iff]
  constructor
  · rintro ⟨w, h⟩
    obtain ⟨mentions, hmentions, h⟩ := bind_eq_ok.mp h
    obtain ⟨hself, h⟩ := guard_eq_ok.mp h
    obtain ⟨hnames, -⟩ := bind_unit_eq_ok.mp h
    rw [Bool.not_eq_true] at hself
    exact ⟨hself ▸ mapError_eq_ok.mp hmentions, mapError_eq_ok.mp hnames⟩
  · intro h
    obtain ⟨text, htext⟩ := ((BoundaryType.named_iff _).mpr h).exists_native
    exact ⟨_, bind_eq_ok.mpr ⟨false, mapError_eq_ok.mpr h.1, bind_unit_eq_ok.mpr
      ⟨mapError_eq_ok.mpr h.2, bind_eq_ok.mpr ⟨text, mapError_eq_ok.mpr htext, rfl⟩⟩⟩⟩

/-- The signature of a destructor. -/
lemma signature_of_compileDestructor {name : String} {params : List BoundaryType} {w : Wrapper}
    (h : compileDestructor (some (.struct name params)) none = .ok w) :
    w.signature = ⟨Name.baseName name ++ "_free", true, [.receiver], none, false⟩ := by
  obtain ⟨mentions, -, h⟩ := bind_eq_ok.mp h
  obtain ⟨-, h⟩ := guard_eq_ok.mp h
  obtain ⟨-, h⟩ := bind_unit_eq_ok.mp h
  obtain ⟨text, -, h⟩ := bind_eq_ok.mp h
  rw [← pure_eq_ok.mp h]

end AbiBridge
