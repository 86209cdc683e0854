import AbiBridge.Proofs.Wrapper.Emission
import AbiBridge.Proofs.Wrapper.Ownership

/-!
The result protocol.

What a wrapper says about its result is written down in several places: in the out-pointers of the
signature, in the name that the value of the call is bound to, in the writes through the
out-pointers, and in the declared return type with the last line of the body.

* `ResultRow`: for each kind of result, what is declared and what is written;
* `BindsValue`: on a way out, the value is there before it is used;
* `ReturnsAsDeclared`: the return type and the last line of the body agree;
* `resultProtocol_of_compile`: all of it, for every descriptor that has a wrapper and whose scalars
  are those of the native language.
-/

namespace AbiBridge

open Outcome Emitter

/-! ### Observations -/

namespace BoundaryType

mutual

/-- The scalars in a type, at any depth. -/
def scalars : BoundaryType → List String
  | primitive name => [name]
  | struct _ params => scalarsAll params
  | sharedRef inner | mutRef inner => scalars inner
  | sequence elem => scalars elem
  | enum _ _ | unknown => []

/-- The scalars in a list of types. -/
def scalarsAll : List BoundaryType → List String
  | [] => []
  | t :: ts => scalars t ++ scalarsAll ts

end

end BoundaryType

/-- The scalars in all the types of a descriptor. -/
def Descriptor.scalars (d : Descriptor) : List String :=
  BoundaryType.scalarsAll (d.owner.toList ++ d.args.map Prod.snd ++ d.ret.toList)

/-- The name of an out-pointer, and the scalar that it points to. -/
def Parameter.out? : Parameter → Option (String × String)
  | .receiver => none
  | .named name scalar role => if role.isOut then some (name, scalar) else none

/-- The out-pointers that a signature declares. -/
def Signature.outs (s : Signature) : List (String × String) := s.params.filterMap Parameter.out?

/-- The text of an exported function with the given arrow, and the given last line of its body. -/
def Signature.exportedText (s : Signature) (arrow : String) (body : List String)
    (last : String) : String :=
  "\n".intercalate (["#[no_mangle]", "pub extern \"C\" fn " ++ s.name ++ "(" ++ s.paramsText ++
    ")" ++ arrow ++ " \x7b"] ++ body ++ [last, "\x7d"]) ++ "\n"

namespace Statement

/-- The name that a statement binds. -/
def bound? : Statement → Option String
  | bind name .. => some name
  | reclaim name .. => some name
  | openMatch _ _ binding => binding
  | call _ binding => binding
  | _ => none

/-- The texts of a declaration, of a write through an out-pointer, or of a line of its own. -/
def texts : Statement → List String
  | bind name value _ typeName _ => name :: value :: typeName.toList
  | storeOut pointer value => [pointer, value]
  | line text => [text]
  | _ => []

/-- Whether a name stands in one of these texts. -/
def uses (name : String) (s : Statement) : Bool := s.texts.any (Name.occursIn name)

/-- Whether a statement writes through an out-pointer. -/
def writes (pointer : String) (s : Statement) : Bool := s.stored?.map Prod.fst == some pointer

/-- The statement neither binds a name nor uses it. -/
def Avoids (name : String) (s : Statement) : Prop := s.bound? ≠ some name ∧ s.uses name = false

end Statement

/-! ### The protocol -/

/-- On a way out, the value of the call is there before it is used. -/
structure BindsValue (d : Descriptor) (path : List Statement) : Prop where
  /-- One statement makes the call, and binds the value if there is one; no statement before it
  knows of the value. -/
  exists_call : ∃ call front s back, d.invocation (d.args.map fun a => a.2.passed a.1) = .ok call ∧
    path = front ++ s :: back ∧ s.evaluates call = true ∧
    (∀ s' ∈ front ++ back, s'.evaluates call = false) ∧
    s.bound? = (if d.ret.isSome then some valueName else none) ∧
    ∀ s' ∈ front, s'.Avoids valueName
  /-- Without a result there is no value. -/
  no_value : d.ret = none → ∀ s ∈ path, s.Avoids valueName

/-- The arrow in front of the body and the last line of the body agree. -/
structure ReturnsAsDeclared (d : Descriptor) (arrow last : String) : Prop where
  sentinel : (arrow = " -> u32" ∧ last = "    0") ↔ d.fallible = true
  value : ∀ name, (arrow = " -> " ++ name ∧ last = "    value") ↔
    d.fallible = false ∧ d.ret = some (.primitive name)
  /-- A statement that ends in a semicolon gives no value. -/
  nothing : (arrow = "" ∧ ∃ front, last = front ++ ";") ↔
    d.fallible = false ∧ ∀ name, d.ret ≠ some (.primitive name)

/-- What is declared about the result, what is written and what is returned agree. -/
structure ResultProtocol (d : Descriptor) (w : Wrapper) : Prop where
  pointer_declared : resultName ∈ w.signature.outs.map Prod.fst ↔
    ∃ t ∈ d.ret, d.fallible = true ∨ ∀ name, t ≠ .primitive name
  length_declared : resultLengthName ∈ w.signature.outs.map Prod.fst ↔
    ∃ elem, d.ret = some (.sequence elem)
  only_declared : ∀ name ∈ w.signature.outs.map Prod.fst, name ∈ [resultName, resultLengthName]
  nodup_declared : (w.signature.outs.map Prod.fst).Nodup
  /-- Every out-pointer is written once, and nothing else is written. -/
  stored_once : ((w.success.filterMap Statement.stored?).map Prod.fst).Perm
    (w.signature.outs.map Prod.fst)
  stored_after_call : ∃ call, d.invocation (d.args.map fun a => a.2.passed a.1) = .ok call ∧
    Precede (·.evaluates call) (·.isOf [.storeOut]) w.success
  /-- The length is written before the value goes away. -/
  length_first : Precede (·.writes resultLengthName) (·.writes resultName) w.success
  /-- What is written ends in a cast to the scalar that the out-pointer was declared for. -/
  stored_as_declared : ∀ t ∈ d.ret, (∀ name, t ≠ .primitive name) →
    ∃ front scalar, (resultName, scalar) ∈ w.signature.outs ∧
      (resultName, front ++ " as " ++ scalar) ∈ w.success.filterMap Statement.stored?
  success : BindsValue d w.success
  failures_length : w.failures.length = if d.fallible then 1 else 0
  /-- On the other way out nothing is written, and the sentinel of failure is returned. -/
  failure : ∀ path ∈ w.failures, BindsValue d path ∧ path.filterMap Statement.stored? = [] ∧
    (∀ s ∈ path, s.uses valueName = false) ∧ path.getLast? = some (.line "return 1;")
  /-- In the text, the declared return type and the last line of the body agree. -/
  text : ∃ arrow body last,
    Statement.sourceOf w.plan = .ok (w.signature.exportedText arrow body last) ∧
      ReturnsAsDeclared d arrow last

/-! ### Declared and written -/

/-- For each kind of result, the out-pointers that are declared for it and the statements that
write them. -/
inductive ResultRow (fallible : Bool) :
    Option BoundaryType → List (String × String) → List Statement → Prop where
  | none : ResultRow fallible .none [] []
  | returned (name : String) (h : fallible = false) :
      ResultRow fallible (some (.primitive name)) [] []
  | scalar (name : String) (h : fallible = true) :
      ResultRow fallible (some (.primitive name)) [(resultName, name)]
        [.storeOut resultName valueName]
  | handle (t : BoundaryType) (front : String) (hscalar : ∀ name, t ≠ .primitive name)
      (hrun : ∀ elem, t ≠ .sequence elem) :
      ResultRow fallible (some t) [(resultName, opaquePointer)]
        [.storeOut resultName (front ++ " as " ++ opaquePointer)]
  | run (elem : BoundaryType) (boxed typeName length front : String) (h : fallible = true) :
      ResultRow fallible (some (.sequence elem))
        [(resultName, "*mut " ++ opaquePointer), (resultLengthName, lengthType)]
        [.bind valueName boxed false (some typeName) false, .storeOut resultLengthName length,
          .storeOut resultName (front ++ " as " ++ ("*mut " ++ opaquePointer))]

/-- Parameters for arguments are no out-pointers. -/
lemma filterMap_out_argumentParameters {name : String} {t : BoundaryType} {ps : List Parameter}
    (h : Descriptor.argumentParameters name t = .ok ps) : ps.filterMap Parameter.out? = [] := by
  obtain ⟨encoding, -, hps⟩ := bind_eq_ok.mp h
  rw [← pure_eq_ok.mp hps]
  cases encoding.hasLength <;> rfl

/-- The declarations and the writes are made case by case, in the same cases. -/
lemma resultRow_of_eq {fallible : Bool} {ret : Option BoundaryType} {ps : List Parameter}
    {stores : List Statement} (hret : ∀ t ∈ ret, t.IsResult fallible)
    (hps : Descriptor.resultParameters fallible ret = .ok ps)
    (hstores : Descriptor.storeResult fallible ret = .ok stores) :
    ResultRow fallible ret (ps.filterMap Parameter.out?) stores := by
  cases ret with
  | none =>
      cases hps
      cases hstores
      exact .none
  | some t =>
      cases hret t rfl with
      | simple hsimple =>
          cases hsimple with
          | primitive name =>
              cases fallible with
              | false =>
                  cases hps
                  cases hstores
                  exact .returned name rfl
              | true =>
                  cases hps
                  cases hstores
                  exact .scalar name rfl
          | struct name params =>
              cases hps
              cases hstores
              exact .handle _ ("Box::into_raw(Box::new(" ++ valueName ++ "))") (by simp) (by simp)
      | sharedRef hsimple =>
          obtain ⟨text, -, hstores⟩ := bind_eq_ok.mp hstores
          cases hps
          cases hstores
          exact .handle _ (valueName ++ " as *const " ++ text) (by simp) (by simp)
      | mutRef hsimple =>
          obtain ⟨text, -, hstores⟩ := bind_eq_ok.mp hstores
          cases hps
          cases hstores
          exact .handle _ (valueName ++ " as *mut " ++ text) (by simp) (by simp)
      | @sequence elem hprotocol hsimple =>
          cases hstores
          have hparams : ps = [.named resultName ("*mut " ++ opaquePointer) .result,
              .named resultLengthName lengthType .resultLength] := by
            cases hsimple <;> cases hps <;> rfl
          rw [hparams]
          exact .run elem _ _ _ ("Box::into_raw(" ++ valueName ++ ")") hprotocol

lemma resultRow {d : Descriptor} (hd : d.Acceptable) (a : Assembly d) :
    ResultRow d.fallible d.ret a.signature.outs a.stores := by
  have hparams := a.params_eq
  obtain ⟨args, hargs, hparams⟩ := bind_eq_ok.mp hparams
  obtain ⟨result, hresult, hparams⟩ := bind_eq_ok.mp hparams
  have hnone : args.flatten.filterMap Parameter.out? = [] := by
    rw [List.filterMap_flatten, List.flatten_eq_nil_iff]
    intro outs houts
    obtain ⟨ps, hps, rfl⟩ := List.mem_map.mp houts
    obtain ⟨arg, -, harg⟩ := Listwise.exists_of_mem_right (mapM_eq_ok.mp hargs) hps
    exact filterMap_out_argumentParameters harg
  have houts : a.signature.outs = result.filterMap Parameter.out? := by
    rw [Signature.outs, Assembly.signature, ← pure_eq_ok.mp hparams, List.filterMap_append,
      List.filterMap_append, hnone]
    cases d.hasReceiver <;> rfl
  rw [houts]
  exact resultRow_of_eq (fun t ht => (hd.result t ht).2) hresult a.stores_eq

namespace ResultRow

variable {fallible : Bool} {ret : Option BoundaryType} {outs : List (String × String)}
  {stores : List Statement}

lemma resultName_mem_iff (h : ResultRow fallible ret outs stores) :
    resultName ∈ outs.map Prod.fst ↔ ∃ t ∈ ret, fallible = true ∨ ∀ name, t ≠ .primitive name := by
  cases h with
  | none => simp
  | returned name hfallible => simp [hfallible]
  | scalar name hfallible => simp [hfallible]
  | handle t front hscalar hrun => simp [hscalar]
  | run elem boxed typeName length front hfallible => simp [hfallible]

lemma resultLengthName_mem_iff (h : ResultRow fallible ret outs stores) :
    resultLengthName ∈ outs.map Prod.fst ↔ ∃ elem, ret = some (.sequence elem) := by
  have hne : resultLengthName ≠ resultName := by decide
  cases h with
  | none => simp
  | returned name hfallible => simp
  | scalar name hfallible => simp [hne]
  | handle t front hscalar hrun => simp [hne, hrun]
  | run elem boxed typeName length front hfallible => simp

lemma mem_names (h : ResultRow fallible ret outs stores) :
    ∀ name ∈ outs.map Prod.fst, name ∈ [resultName, resultLengthName] := by
  cases h <;> simp

lemma nodup_names (h : ResultRow fallible ret outs stores) : (outs.map Prod.fst).Nodup := by
  have hne : resultName ≠ resultLengthName := by decide
  cases h <;> simp [hne]

/-- The out-pointers of a run are written in the other order. -/
lemma stored_perm (h : ResultRow fallible ret outs stores) :
    ((stores.filterMap Statement.stored?).map Prod.fst).Perm (outs.map Prod.fst) := by
  cases h with
  | run elem boxed typeName length front hfallible => exact List.Perm.swap _ _ _
  | _ => exact List.Perm.refl _

lemma stored_as_declared (h : ResultRow fallible ret outs stores) {t : BoundaryType}
    (ht : t ∈ ret) (hscalar : ∀ name, t ≠ .primitive name) :
    ∃ front scalar, (resultName, scalar) ∈ outs ∧
      (resultName, front ++ " as " ++ scalar) ∈ stores.filterMap Statement.stored? := by
  cases h with
  | none => cases ht
  | returned name hfallible => exact absurd (Option.mem_some.mp ht).symm (hscalar name)
  | scalar name hfallible => exact absurd (Option.mem_some.mp ht).symm (hscalar name)
  | handle t front _ hrun =>
      exact ⟨front, opaquePointer, List.mem_cons_self, List.mem_cons_self⟩
  | run elem boxed typeName length front hfallible =>
      exact ⟨front, "*mut " ++ opaquePointer, List.mem_cons_self,
        List.mem_cons_of_mem _ List.mem_cons_self⟩

/-- The length is taken before the run goes away. -/
lemma exists_split (h : ResultRow fallible ret outs stores) : ∃ front back, stores = front ++ back ∧
    (∀ s ∈ front, s.writes resultName = false) ∧
    ∀ s ∈ back, s.writes resultLengthName = false := by
  have hne : resultName ≠ resultLengthName := by decide
  cases h with
  | run elem boxed typeName length front hfallible =>
      exact ⟨[.bind valueName boxed false (some typeName) false,
        .storeOut resultLengthName length], [_], rfl,
        by simp [Statement.writes, Statement.stored?, hne.symm],
        by simp [Statement.writes, Statement.stored?, hne]⟩
  | _ => exact ⟨[], _, rfl, by simp, by simp [Statement.writes, Statement.stored?, hne]⟩

/-- Without a result nothing is written. -/
lemma stores_eq_nil (h : ResultRow fallible .none outs stores) : stores = [] := by
  cases h
  rfl

end ResultRow

/-! ### The value of the call -/

/-- No scalar of the native language is called like the value. -/
lemma occursIn_slice_eq_false {name : String} (h : name ∈ BoundaryType.primitiveNames) :
    Name.occursIn valueName ("&[" ++ name ++ "]") = false := by
  revert name
  decide

/-- The length beside a run is not called like the value. -/
lemma companionName_ne_valueName (name : String) : companionName name ≠ valueName :=
  Descriptor.companionName_ne_of_getLast? (by decide)

/-- The view of a run does not use the value. -/
lemma occursIn_view_eq_false {name : String} (hname : Name.IsName name) (hnew : name ≠ valueName) :
    Name.occursIn valueName ("std::slice::from_raw_parts(" ++ name ++ ", " ++ companionName name ++
      ")") = false := by
  -- the stretches of the view: the function, the argument and the length beside it
  have hsplit : ("std::slice::from_raw_parts(" ++ name ++ ", " ++ companionName name ++
        ")").toList =
      "std::slice::from_raw_parts".toList ++ '(' :: (name.toList ++ ',' :: ([] ++ ' ' ::
        ((companionName name).toList ++ ')' :: []))) := by
    simp
  have hsuffix : "_len".toList.all Name.standsInName = true := by decide
  have hcompanion : Name.stretches (companionName name).toList = [(companionName name).toList] := by
    refine List.splitOnP_eq_singleton fun c hc => ?_
    rw [companionName, String.toList_append, List.mem_append] at hc
    rw [Bool.not_eq_false']
    rcases hc with hc | hc
    · rw [Name.standsInName, Bool.or_eq_true, beq_iff_eq]
      exact hname.isContinue_or_eq hc
    · exact List.all_eq_true.mp hsuffix c hc
  have hempty : valueName.toList ∉ Name.stretches [] := by decide
  have hcall : valueName.toList ∉ Name.stretches "std::slice::from_raw_parts".toList := by decide
  rw [Name.occursIn_eq_false_iff, hsplit, Name.mem_stretches_append_cons (by decide),
    Name.mem_stretches_append_cons (by decide), Name.mem_stretches_append_cons (by decide),
    Name.mem_stretches_append_cons (by decide), hname.stretches_eq, hcompanion,
    List.mem_singleton, List.mem_singleton, String.toList_inj, String.toList_inj]
  rintro (h | h | h | h | h)
  · exact hcall h
  · exact hnew h.symm
  · exact hempty h
  · exact companionName_ne_valueName name h.symm
  · exact hempty h

lemma avoids_of_eq_none {s : Statement} {name : String} (hbound : s.bound? = none)
    (huses : s.uses name = false) : s.Avoids name := by
  refine ⟨?_, huses⟩
  rw [hbound]
  exact (Option.some_ne_none name).symm

/-- What rebuilds an argument does not know of the value. -/
lemma RebuildRow.avoids {name : String} {t : BoundaryType} {r : Rebuilt} (h : RebuildRow name t r)
    (hname : Name.IsName name) (hnew : name ≠ valueName) (ht : t.IsArgument)
    (hscalars : ∀ s ∈ t.scalars, s ∈ BoundaryType.primitiveNames) :
    ∀ s ∈ r.steps, s.Avoids valueName := by
  have hbound : some name ≠ some valueName := fun heq => hnew (Option.some.inj heq)
  cases h with
  | scalar s => exact fun s hs => absurd hs List.not_mem_nil
  | handle h text hhandles hself htext =>
      exact List.forall_mem_singleton.mpr ⟨hself ▸ hbound, rfl⟩
  | run elem text htext =>
      refine List.forall_mem_singleton.mpr ⟨hbound, ?_⟩
      cases ht with
      | simple hsimple => cases hsimple
      | sequence s =>
          have hscalar : s ∈ BoundaryType.primitiveNames := hscalars s List.mem_cons_self
          rw [pure_eq_ok.mp htext] at hscalar
          have hself : Name.occursIn valueName name = false := by
            rw [Name.occursIn_eq_false_iff, hname.stretches_eq, List.mem_singleton,
              String.toList_inj]
            exact fun heq => hnew heq.symm
          rw [Statement.uses, Statement.texts, List.any_cons, List.any_cons, hself,
            occursIn_view_eq_false hname hnew]
          exact (Bool.or_false _).trans (occursIn_slice_eq_false hscalar)
  | ordinal s vs =>
      intro s hs
      rw [decodeEnum, List.mem_append, List.mem_cons, List.mem_map] at hs
      rcases hs with (rfl | ⟨v, -, rfl⟩) | hs
      · exact ⟨hbound, rfl⟩
      · exact avoids_of_eq_none rfl rfl
      · rcases List.mem_cons.mp hs with rfl | hs
        · exact avoids_of_eq_none rfl rfl
        · rw [List.mem_singleton.mp hs]
          exact avoids_of_eq_none rfl rfl

lemma ReceiverRow.avoids {d : Descriptor} {r : Rebuilt} (h : ReceiverRow d r) :
    ∀ s ∈ r.steps, s.Avoids valueName := by
  have hbound : some receiverName ≠ some valueName := by decide
  cases h with
  | none hhandles => exact fun s hs => absurd hs List.not_mem_nil
  | handle h text hhandles hname htext =>
      exact List.forall_mem_singleton.mpr ⟨hname ▸ hbound, rfl⟩

lemma BoundaryType.scalars_subset_scalarsAll {t : BoundaryType} {ts : List BoundaryType}
    (h : t ∈ ts) : t.scalars ⊆ scalarsAll ts := by
  induction ts with
  | nil => exact absurd h List.not_mem_nil
  | cons u ts ih =>
      rw [scalarsAll]
      rcases List.mem_cons.mp h with rfl | h
      · exact List.subset_append_left _ _
      · exact List.Subset.trans (ih h) (List.subset_append_right _ _)

/-- Statements that neither bind a name nor have a text. -/
lemma avoids_of_onlyOf {name : String} {l : List Statement}
    (h : OnlyOf [.openFunction, .arm, .armBlock, .closeScope, .release] l) :
    ∀ s ∈ l, s.Avoids name := by
  intro s hs
  have hkind := h s hs
  cases s <;> first | (simp [Statement.kind] at hkind; done) | exact avoids_of_eq_none rfl rfl

lemma filterMap_stored_eq_nil {kinds : List StatementKind} {l : List Statement}
    (hl : OnlyOf kinds l) (h : .storeOut ∉ kinds) : l.filterMap Statement.stored? = [] := by
  refine List.filterMap_eq_nil_iff.mpr fun s hs => ?_
  have hkind := hl.ne h s hs
  cases s <;> first | rfl | exact absurd rfl hkind

namespace Assembly

variable {d : Descriptor} (a : Assembly d)

lemma avoids_of_mem_before (hd : d.Acceptable)
    (hscalars : ∀ s ∈ d.scalars, s ∈ BoundaryType.primitiveNames) :
    ∀ s ∈ a.before, s.Avoids valueName := by
  refine List.forall_mem_cons.mpr ⟨avoids_of_eq_none rfl rfl, List.forall_mem_append.mpr
    ⟨(receiverRow a.receiver_eq).avoids, fun s hs => ?_⟩⟩
  obtain ⟨r, hr, hs⟩ := List.mem_flatMap.mp hs
  obtain ⟨arg, harg, hrow⟩ := a.exists_rebuildRow hr
  obtain ⟨hname, hreserved⟩ := hd.argNames arg harg
  have hnew : arg.1 ≠ valueName := fun heq => hreserved (heq ▸ by decide)
  have hmem : arg.2 ∈ d.owner.toList ++ d.args.map Prod.snd ++ d.ret.toList :=
    List.mem_append_left _ (List.mem_append_right _ (List.mem_map_of_mem harg))
  refine hrow.avoids hname hnew (hd.argTypes arg harg).2 ?_ s hs
  exact fun u hu => hscalars u (BoundaryType.scalars_subset_scalarsAll hmem hu)

lemma callStatement_bound : a.callStatement.bound? = a.binding := by
  rw [callStatement]
  split <;> rfl

lemma callStatement_uses (name : String) : a.callStatement.uses name = false := by
  rw [callStatement]
  split <;> rfl

lemma bindsValue_append (hd : d.Acceptable)
    (hscalars : ∀ s ∈ d.scalars, s ∈ BoundaryType.primitiveNames) {back : List Statement}
    (hquiet : ∀ s ∈ back, s.evaluates a.call = false)
    (hnone : d.ret = none → ∀ s ∈ back, s.Avoids valueName) :
    BindsValue d (a.before ++ a.callStatement :: back) := by
  have hbefore := a.avoids_of_mem_before hd hscalars
  refine ⟨⟨a.call, a.before, a.callStatement, back, a.expressions_eq ▸ a.call_eq, rfl,
    a.evaluates_callStatement, ?_, a.callStatement_bound, hbefore⟩, fun hret => ?_⟩
  · exact List.forall_mem_append.mpr ⟨fun s hs => a.not_evaluates_of_mem_before hd hs, hquiet⟩
  · refine List.forall_mem_append.mpr ⟨hbefore, List.forall_mem_cons.mpr ⟨?_, hnone hret⟩⟩
    refine avoids_of_eq_none ?_ (a.callStatement_uses valueName)
    rw [callStatement_bound, binding, hret]
    rfl

lemma avoids_of_mem_failure : ∀ s ∈ a.failure, s.Avoids valueName := by
  refine List.forall_mem_append.mpr ⟨avoids_of_onlyOf (a.onlyOf_releases.mono (by simp)), ?_⟩
  exact List.forall_mem_singleton.mpr (avoids_of_eq_none rfl (by decide))

lemma avoids_of_mem_afterwards (hd : d.Acceptable) (hret : d.ret = none) :
    ∀ s ∈ a.afterwards, s.Avoids valueName := by
  have hstores : a.stores = [] := by
    have hrow := resultRow hd a
    rw [hret] at hrow
    exact hrow.stores_eq_nil
  have hlast : a.last = [] := by
    rw [last, Descriptor.nativeReturn, hret]
    rfl
  rw [afterwards, ending, hstores, hlast, List.nil_append, List.nil_append]
  exact avoids_of_onlyOf (.append (a.onlyOf_arms.mono (by simp))
    (.append (a.onlyOf_releases.mono (by simp)) (.cons (by simp [Statement.kind]) .nil)))

/-- What is written on the way to the end. -/
lemma filterMap_stored_success :
    a.wrapper.success.filterMap Statement.stored? = a.stores.filterMap Statement.stored? := by
  have hcall := filterMap_stored_eq_nil a.onlyOf_callStatement (by simp)
  rw [success_eq, afterwards, ← List.singleton_append, List.filterMap_append,
    List.filterMap_append, List.filterMap_append, List.filterMap_append,
    filterMap_stored_eq_nil a.onlyOf_before (by simp [stepKinds]), hcall,
    filterMap_stored_eq_nil a.onlyOf_arms (by simp),
    filterMap_stored_eq_nil a.onlyOf_ending (by simp)]
  exact List.append_nil _

lemma filterMap_stored_failure :
    (a.before ++ a.callStatement :: a.failure).filterMap Statement.stored? = [] := by
  have honly : OnlyOf (.openFunction :: .call :: .release :: .line :: stepKinds)
      (a.before ++ ([a.callStatement] ++ a.failure)) :=
    .append (a.onlyOf_before.mono (by simp [stepKinds]))
      (.append (a.onlyOf_callStatement.mono (by simp [stepKinds]))
        (a.onlyOf_failure.mono (by simp)))
  exact filterMap_stored_eq_nil honly (by simp [stepKinds])

lemma not_evaluates_of_mem_afterwards : ∀ s ∈ a.afterwards, s.evaluates a.call = false :=
  a.onlyOf_afterwards.evaluates_eq_false (by simp) (by simp) a.call

lemma call_precedes_stores :
    Precede (·.evaluates a.call) (·.isOf [.storeOut]) a.wrapper.success := by
  have hfront : OnlyOf (.openFunction :: .call :: stepKinds) (a.before ++ [a.callStatement]) :=
    .append (a.onlyOf_before.mono (by simp [stepKinds]))
      (a.onlyOf_callStatement.mono (by simp [stepKinds]))
  refine ⟨_, a.afterwards, ?_, hfront.isOf_eq_false (by simp [stepKinds]),
    a.not_evaluates_of_mem_afterwards⟩
  rw [success_eq, List.append_assoc]
  rfl

end Assembly

/-! ### The last line -/

/-- A text ends as its last piece does. -/
lemma exists_join_eq (pieces : List String) (last : String) :
    ∃ front, String.join (pieces ++ [last ++ ";"]) = front ++ ";" := by
  refine ⟨String.join pieces ++ last, ?_⟩
  rw [String.join_append, String.join_cons, String.join_nil, String.append_empty,
    String.append_assoc]

lemma exists_bindingText_eq (name value : String) (isMutable : Bool) (typeName : Option String)
    (unchecked : Bool) :
    ∃ front, bindingText name value isMutable typeName unchecked = front ++ ";" :=
  exists_join_eq ["let ", _, name, _, " = ", _] ""

lemma exists_storeText_eq (pointer value : String) :
    ∃ front, storeText pointer value = front ++ ";" :=
  exists_join_eq ["unsafe \x7b *", pointer, " = ", value] " \x7d"

lemma exists_releaseText_eq (name : String) : ∃ front, releaseText name = front ++ ";" :=
  exists_join_eq ["let _ = Box::into_raw(", name] ")"

lemma exists_callText_eq (expression : String) (binding : Option String) (isMutable : Bool) :
    ∃ front, callText expression binding isMutable = front ++ ";" := by
  rw [callText.eq_def]
  cases binding with
  | none => exact ⟨expression, rfl⟩
  | some name =>
      dsimp only
      split
      · exact ⟨expression, rfl⟩
      · exact exists_bindingText_eq _ _ _ _ _

/-- A statement that is written as a line, and is no line of its own, ends in a semicolon. -/
lemma exists_text {s : Statement} (hs : s.kind ∈ [.bind, .storeOut, .call, .reclaim, .release]) :
    ∃ front, s.text? = some (front ++ ";") := by
  cases s with
  | bind name value isMutable typeName unchecked =>
      obtain ⟨front, hfront⟩ := exists_bindingText_eq name value isMutable typeName unchecked
      exact ⟨front, congrArg some hfront⟩
  | storeOut pointer value =>
      obtain ⟨front, hfront⟩ := exists_storeText_eq pointer value
      exact ⟨front, congrArg some hfront⟩
  | call expression binding =>
      obtain ⟨front, hfront⟩ := exists_callText_eq expression binding false
      exact ⟨front, congrArg some hfront⟩
  | reclaim name native isMutable consume =>
      obtain ⟨front, hfront⟩ := exists_bindingText_eq name _ isMutable none true
      exact ⟨front, congrArg some hfront⟩
  | release name =>
      obtain ⟨front, hfront⟩ := exists_releaseText_eq name
      exact ⟨front, congrArg some hfront⟩
  | _ => simp [Statement.kind] at hs

namespace Assembly

variable {d : Descriptor} (a : Assembly d)

/-- A body whose last statement is written as a line. -/
lemma exists_appends_of_last {ss : List Statement} {s : Statement} {last : String}
    (hss : IsBlock ss) (hs : s.text? = some last) :
    ∃ front, Appends (Statement.emitAll (ss ++ [s])) (front ++ [last]) := by
  obtain ⟨front, hfront⟩ := hss
  exact ⟨front, Statement.appends_emitAll_append hfront
    (Statement.appends_emitAll_of_text (.cons hs .nil))⟩

/-- The last line of a wrapper that cannot fail: the value, if it returns it itself, and a
statement otherwise. -/
lemma exists_lines (hfallible : d.fallible = false) :
    ∃ front last, Appends (Statement.emitAll a.wrapper.body) (front ++ [last]) ∧
      (d.nativeReturn.isSome = true → last = valueName) ∧
      (d.nativeReturn.isSome = false → ∃ u, last = u ++ ";") := by
  by_cases hreturn : d.nativeReturn.isSome = true
  · have hbody : a.wrapper.body = a.steps ++ a.called ++ (a.stores ++ a.releases) ++
        [.line valueName] := by
      rw [wrapper, last, if_pos hreturn]
      simp only [List.append_assoc]
    have htail : OnlyOf lineKinds (a.stores ++ a.releases) :=
      .append (a.onlyOf_stores.mono (by simp [lineKinds]))
        (a.onlyOf_releases.mono (by simp [lineKinds]))
    obtain ⟨front, hfront⟩ := exists_appends_of_last (s := .line valueName)
      ((a.isBlock_steps.append a.isBlock_called).append (.of_onlyOf htail)) rfl
    refine ⟨front, valueName, hbody ▸ hfront, fun _ => rfl, fun h => ?_⟩
    exact absurd hreturn (Bool.eq_false_iff.mp h)
  · -- what is left behind the steps is not empty, and none of it is a line of its own
    have hne : a.callStatement :: (a.stores ++ a.releases) ≠ [] := List.cons_ne_nil _ _
    have hbody : a.wrapper.body = a.steps ++ (a.callStatement :: (a.stores ++ a.releases)) := by
      rw [wrapper, last, if_neg hreturn, called_eq, arms, if_neg (by rw [hfallible]; decide)]
      simp only [List.append_assoc, List.append_nil, List.cons_append, List.nil_append]
    have honly : OnlyOf [.bind, .storeOut, .call, .reclaim, .release]
        (a.callStatement :: (a.stores ++ a.releases)) := by
      refine .cons ?_ (.append (a.onlyOf_stores.mono (by simp)) (a.onlyOf_releases.mono (by simp)))
      rw [callStatement, if_neg (by rw [hfallible]; decide)]
      simp [Statement.kind]
    obtain ⟨u, hu⟩ := exists_text (honly _ (List.getLast_mem hne))
    have hinit : IsBlock (a.callStatement :: (a.stores ++ a.releases)).dropLast :=
      .of_onlyOf fun s hs => (honly.mono (by simp [lineKinds])) s
        ((List.dropLast_sublist _).subset hs)
    obtain ⟨front, hfront⟩ := exists_appends_of_last (a.isBlock_steps.append hinit) hu
    rw [List.append_assoc, List.dropLast_append_getLast hne, ← hbody] at hfront
    exact ⟨front, u ++ ";", hfront, fun h => absurd h hreturn, fun _ => ⟨u, rfl⟩⟩

/-- The text of a wrapper, by the lines of its body. -/
lemma sourceOf_eq_of_appends {lines : List String} (front : List String) (last : String)
    (h : Appends (Statement.emitAll a.wrapper.body) lines)
    (hlast : (lines ++ if d.fallible then [successSentinel] else []) = front ++ [last]) :
    Statement.sourceOf a.wrapper.plan = .ok (a.signature.exportedText
      (Signature.arrow a.signature.result) (front.map (indented 1)) (indented 1 last)) := by
  have hlast' : (lines ++ if a.wrapper.signature.fallible then [successSentinel] else []) =
      front ++ [last] := hlast
  have hheader : a.wrapper.signature.header = ["#[no_mangle]", "pub extern \"C\" fn " ++
      a.signature.name ++ "(" ++ a.signature.paramsText ++ ")" ++
      Signature.arrow a.signature.result ++ " \x7b"] := by
    have hexported : a.wrapper.signature.exported = true := rfl
    rw [Signature.header, hexported, if_pos rfl]
    simp only [String.append_assoc]
    rfl
  rw [sourceOf_eq h, Wrapper.block, hheader, hlast', Signature.exportedText, List.map_append,
    List.append_assoc, List.append_assoc]
  rfl

end Assembly

namespace ReturnsAsDeclared

variable {d : Descriptor}

lemma of_fallible (h : d.fallible = true) : ReturnsAsDeclared d " -> u32" "    0" where
  sentinel := ⟨fun _ => h, fun _ => ⟨rfl, rfl⟩⟩
  value := by
    intro name
    have hlast : "    0" ≠ "    value" := by decide
    simp [h, hlast]
  nothing := by
    have harrow : " -> u32" ≠ "" := by decide
    simp [h, harrow]

lemma of_primitive {name : String} (h : d.fallible = false)
    (hret : d.ret = some (.primitive name)) :
    ReturnsAsDeclared d (" -> " ++ name) "    value" where
  sentinel := by
    have hlast : "    value" ≠ "    0" := by decide
    simp [h, hlast]
  value := by
    intro name'
    rw [hret, Option.some.injEq, BoundaryType.primitive.injEq, String.append_right_inj]
    exact ⟨fun hname => ⟨h, hname.1⟩, fun hname => ⟨hname.2, rfl⟩⟩
  nothing := by
    have harrow : " -> " ++ name ≠ "" := by
      rw [Ne, String.append_eq_empty_iff]
      exact fun hempty => absurd hempty.1 (by decide)
    simp [harrow, hret]

lemma of_statement (h : d.fallible = false) (hret : ∀ name, d.ret ≠ some (.primitive name))
    (u : String) : ReturnsAsDeclared d "" (indented 1 (u ++ ";")) where
  sentinel := by
    have harrow : "" ≠ " -> u32" := by decide
    simp [h, harrow]
  value := by
    intro name
    have harrow : "" ≠ " -> " ++ name := by
      intro hempty
      have hfront := (String.append_eq_empty_iff.mp hempty.symm).1
      exact absurd hfront (by decide)
    simp [hret, harrow]
  nothing := by
    have hne : u ++ ";" ≠ "" := by simp
    refine ⟨fun _ => ⟨h, hret⟩, fun _ => ⟨rfl, "    " ++ u, ?_⟩⟩
    rw [indented, if_neg hne, String.append_assoc]
    rfl

end ReturnsAsDeclared

namespace Assembly

variable {d : Descriptor} (a : Assembly d)

/-- The return type that is declared and the last line of the body agree. -/
lemma exists_sourceOf_eq (hscalars : ∀ s ∈ d.scalars, s ∈ BoundaryType.primitiveNames) :
    ∃ arrow body last,
      Statement.sourceOf a.wrapper.plan = .ok (a.signature.exportedText arrow body last) ∧
        ReturnsAsDeclared d arrow last := by
  cases hfallible : d.fallible with
  | true =>
      obtain ⟨lines, hlines⟩ := a.isBlock_body
      have harrow : Signature.arrow a.signature.result = " -> u32" := by
        rw [Signature.result, signature, hfallible]
        rfl
      have hlast : indented 1 successSentinel = "    0" := by decide
      have htext := a.sourceOf_eq_of_appends lines successSentinel hlines (by rw [hfallible]; rfl)
      rw [harrow, hlast] at htext
      exact ⟨_, _, _, htext, .of_fallible hfallible⟩
  | false =>
      obtain ⟨front, last, hlines, hvalue, hstatement⟩ := a.exists_lines hfallible
      have hresult : a.signature.result = d.nativeReturn := by
        rw [Signature.result, signature, hfallible]
        rfl
      have htext := a.sourceOf_eq_of_appends front last hlines
        (by rw [hfallible]; exact List.append_nil _)
      rw [hresult] at htext
      by_cases hret : ∃ name, d.ret = some (.primitive name)
      · obtain ⟨name, hret⟩ := hret
        have hreturn : d.nativeReturn = some name := by
          rw [Descriptor.nativeReturn, hret]
          dsimp only
          rw [hfallible]
          rfl
        have hmem : BoundaryType.primitive name ∈
            d.owner.toList ++ d.args.map Prod.snd ++ d.ret.toList := by
          rw [hret]
          exact List.mem_append_right _ List.mem_cons_self
        -- an empty scalar would be declared by no arrow
        have hname : name ≠ "" := by
          have hscalar := hscalars name
            (BoundaryType.scalars_subset_scalarsAll hmem List.mem_cons_self)
          rintro rfl
          revert hscalar
          decide
        have harrow : Signature.arrow d.nativeReturn = " -> " ++ name := by
          rw [hreturn, Signature.arrow, if_neg hname]
        have hlast : indented 1 last = "    value" := by
          rw [hvalue (by rw [hreturn]; rfl)]
          decide
        rw [harrow, hlast] at htext
        exact ⟨_, _, _, htext, .of_primitive hfallible hret⟩
      · have hret : ∀ name, d.ret ≠ some (.primitive name) := fun name h => hret ⟨name, h⟩
        have hreturn : d.nativeReturn = none := by
          rw [Descriptor.nativeReturn]
          split
          · exact absurd ‹_› (hret _)
          · rfl
        obtain ⟨u, hu⟩ := hstatement (by rw [hreturn]; rfl)
        rw [hreturn, hu] at htext
        exact ⟨_, _, _, htext, .of_statement hfallible hret u⟩

/-- The length is written first. -/
lemma length_precedes_pointer (hd : d.Acceptable) :
    Precede (·.writes resultLengthName) (·.writes resultName) a.wrapper.success := by
  have hquiet : ∀ {kinds : List StatementKind} {l : List Statement} (pointer : String),
      OnlyOf kinds l → .storeOut ∉ kinds → ∀ s ∈ l, s.writes pointer = false := by
    intro kinds l pointer hl hkinds s hs
    have hstored := List.filterMap_eq_nil_iff.mp (filterMap_stored_eq_nil hl hkinds) s hs
    rw [Statement.writes, hstored]
    rfl
  obtain ⟨front, back, hstores, hfront, hback⟩ := (resultRow hd a).exists_split
  have hbefore : OnlyOf (.openFunction :: .call :: .arm :: .armBlock :: stepKinds)
      (a.before ++ ([a.callStatement] ++ a.arms)) :=
    .append (a.onlyOf_before.mono (by simp [stepKinds]))
      (.append (a.onlyOf_callStatement.mono (by simp [stepKinds]))
        (a.onlyOf_arms.mono (by simp [stepKinds])))
  refine ⟨a.before ++ ([a.callStatement] ++ a.arms) ++ front, back ++ a.ending, ?_,
    List.forall_mem_append.mpr ⟨hquiet _ hbefore (by simp [stepKinds]), hfront⟩,
    List.forall_mem_append.mpr ⟨hback, hquiet _ a.onlyOf_ending (by simp)⟩⟩
  rw [success_eq, afterwards, hstores]
  simp only [List.append_assoc, List.cons_append, List.nil_append]

end Assembly

/-- **Result protocol.** Whatever the result and whether or not the call can fail, the out-pointers
that are declared are those that are written, behind the call and once each; the value is bound
before it is used; and the wrapper returns what it is declared to return. -/
theorem resultProtocol_of_compile (d : Descriptor) (w : Wrapper) (h : d.compile = .ok w)
    (hscalars : ∀ s ∈ d.scalars, s ∈ BoundaryType.primitiveNames) : ResultProtocol d w := by
  have hd := Descriptor.acceptable_of_compile h
  obtain ⟨a, rfl⟩ := Descriptor.exists_assembly h
  have hrow := resultRow hd a
  have hquiet := a.onlyOf_failure.evaluates_eq_false (by simp) (by simp) a.call
  constructor
  case pointer_declared => exact hrow.resultName_mem_iff
  case length_declared => exact hrow.resultLengthName_mem_iff
  case only_declared => exact hrow.mem_names
  case nodup_declared => exact hrow.nodup_names
  case stored_once =>
    rw [a.filterMap_stored_success]
    exact hrow.stored_perm
  case stored_after_call => exact ⟨a.call, a.expressions_eq ▸ a.call_eq, a.call_precedes_stores⟩
  case length_first => exact a.length_precedes_pointer hd
  case stored_as_declared =>
    rw [a.filterMap_stored_success]
    exact fun t ht hscalar => hrow.stored_as_declared ht hscalar
  case success =>
    rw [a.success_eq]
    exact a.bindsValue_append hd hscalars a.not_evaluates_of_mem_afterwards
      (a.avoids_of_mem_afterwards hd)
  case failures_length => exact a.failures_length
  case failure =>
    intro path hpath
    have hlast := a.getLast?_of_mem_failures hpath
    rw [a.eq_of_mem_failures hpath] at hlast ⊢
    refine ⟨a.bindsValue_append hd hscalars hquiet fun _ => a.avoids_of_mem_failure,
      a.filterMap_stored_failure, ?_, hlast⟩
    exact List.forall_mem_append.mpr ⟨fun s hs => (a.avoids_of_mem_before hd hscalars s hs).2,
      List.forall_mem_cons.mpr ⟨a.callStatement_uses valueName,
        fun s hs => (a.avoids_of_mem_failure s hs).2⟩⟩
  case text => exact a.exists_sourceOf_eq hscalars

theorem resultProtocol_exchange :
    ∃ w, Descriptor.exchange.compile = .ok w ∧
      (∀ s ∈ Descriptor.exchange.scalars, s ∈ BoundaryType.primitiveNames) ∧
      ResultProtocol Descriptor.exchange w :=
  ⟨_, rfl, by decide, resultProtocol_of_compile Descriptor.exchange _ rfl (by decide)⟩

end AbiBridge
