import AbiBridge.Proofs.Wrapper.ResultProtocol
import Mathlib.Data.List.Pairwise

/-!
Names in a wrapper.

The parameters of a wrapper and the statements of its body are made by two walks over the
descriptor, which agree on the names of the parameters.

* `ArgumentRow`, `OutRow`: for each type of argument and each kind of result, its parameters;
* `Statement.parameterReads`: the parameters that a statement reads;
* `Scoped`: on one way out, what is read is declared and what is declared is used;
* `wellScoped_of_compile`: for every descriptor that has a wrapper, the parameters stand in their
  order under names of their own, and every way out is scoped.
-/

namespace AbiBridge

open Outcome

/-! ### Parameters -/

namespace BoundaryType

/-- Whether an argument crosses as a handle. -/
def isHandle : BoundaryType → Bool
  | struct _ _ | sharedRef _ | mutRef _ => true
  | primitive _ | sequence _ | enum _ _ | unknown => false

/-- Whether an argument crosses with a length beside it. -/
def isRun : BoundaryType → Bool
  | sequence _ => true
  | primitive _ | struct _ _ | sharedRef _ | mutRef _ | enum _ _ | unknown => false

end BoundaryType

/-- The parameters of an argument: a run has its length behind it, and nothing else has one. -/
inductive ArgumentRow (name : String) : BoundaryType → List Parameter → Prop where
  | run (elem : BoundaryType) (scalar : String) :
      ArgumentRow name (.sequence elem)
        [.named name scalar .argument, .named (name ++ "_len") "usize" .length]
  | single {t : BoundaryType} (scalar : String) (notRun : t.isRun = false) :
      ArgumentRow name t [.named name scalar .argument]

/-- The out-pointers of a result. -/
inductive OutRow (fallible : Bool) : Option BoundaryType → List Parameter → Prop where
  | none {ret : Option BoundaryType}
      (direct : ∀ t ∈ ret, fallible = false ∧ ∃ name, t = .primitive name) :
      OutRow fallible ret []
  | pointer {t : BoundaryType} (scalar : String)
      (through : fallible = true ∨ ∀ name, t ≠ .primitive name) (notRun : t.isRun = false) :
      OutRow fallible (some t) [.named "return_ptr" scalar .result]
  | run (elem : BoundaryType) (scalar : String) :
      OutRow fallible (some (.sequence elem))
        [.named "return_ptr" scalar .result, .named "return_len" "usize" .resultLength]

/-! ### Observations -/

/-- How a text begins that makes a slice of a pointer and a length. -/
def viewOpening : String := "std::slice::from_raw_parts("

/-- The pointer and the length that a text makes a slice of. -/
def viewParts? (text : String) : Option (String × String) :=
  match viewOpening.toList.isPrefixOf? text.toList with
  | none => none
  | some rest => some (String.ofList (rest.takeWhile (· ≠ ',')),
      String.ofList ((rest.dropWhile (· ≠ ',')).drop 2).dropLast)

namespace Statement

/-- The pointer and the length that a statement makes a slice of. -/
def viewed? : Statement → Option (String × String)
  | bind _ value _ _ _ => viewParts? value
  | _ => none

/-- The names that a statement reads as parameters: the handle that it takes back or hands out, the
ordinal that it matches on, the out-pointer that it writes through, and the pointer and the length
of a slice. A match over the call is about no parameter. -/
def parameterReads (call : String) : Statement → List String
  | reclaim name .. | release name => [name]
  | openMatch scrutinee .. => if scrutinee = call then [] else [scrutinee]
  | storeOut pointer _ => [pointer]
  | bind _ value _ _ _ => ((viewParts? value).map fun v => [v.1, v.2]).getD []
  | _ => []

end Statement

/-! ### The discipline of names -/

/-- On a way out, what is read as a parameter is declared, and the handles and the lengths that are
declared are used. -/
structure Scoped (d : Descriptor) (names : List String) (call : String)
    (path : List Statement) : Prop where
  declared : ∀ s ∈ path, ∀ name ∈ s.parameterReads call, name ∈ names
  /-- The handles are taken back, each once and in their order. -/
  reclaimed : path.filterMap Statement.reclaimed? =
    (if d.hasReceiver then [receiverName] else []) ++
      (d.args.filter (·.2.isHandle)).map Prod.fst
  /-- Slices are made of the runs, each once and of its own length. -/
  viewed : path.filterMap Statement.viewed? =
    (d.args.filter (·.2.isRun)).map fun a => (a.1, a.1 ++ "_len")
  /-- Nothing else reads a length. -/
  lengths : ∀ a ∈ d.args, a.2.isRun = true → ∀ s ∈ path,
    a.1 ++ "_len" ∈ s.parameterReads call → s.viewed? = some (a.1, a.1 ++ "_len")
  called_once : (path.filter (·.evaluates call)).length = 1

/-- The parameters of a wrapper and the names in its body agree. -/
structure WellScoped (d : Descriptor) (w : Wrapper) : Prop where
  /-- The receiver, the arguments in their order, and the out-pointers. -/
  layout : ∃ args outs,
    w.signature.params = (if d.hasReceiver then [.receiver] else []) ++ args.flatten ++ outs ∧
      List.Forall₂ (fun a ps => ArgumentRow a.1 a.2 ps) d.args args ∧
      OutRow d.fallible d.ret outs
  nodup_names : (w.signature.params.map Parameter.name).Nodup
  /-- Every argument is passed on as it is or borrowed, under its own name. -/
  passed : ∀ a ∈ d.args, a.1 ∈ w.signature.params.map Parameter.name ∧
    ∃ borrow ∈ ["", "&*", "&mut *"], a.2.passed a.1 = borrow ++ a.1
  /-- The call has all the arguments, in their order, and the receiver if there is one. -/
  exits : ∃ call front,
    call = front ++ (d.funcName ++ "(" ++ ", ".intercalate (d.args.map fun a => a.2.passed a.1) ++
      ")") ∧
      (d.hasReceiver = true → front = receiverName ++ ".") ∧
      ∀ path ∈ w.success :: w.failures,
        Scoped d (w.signature.params.map Parameter.name) call path
  /-- Every out-pointer is written once on the way to the end, and nothing else is written. -/
  stored : ((w.success.filterMap Statement.stored?).map Prod.fst).Perm
    (w.signature.outs.map Prod.fst)

/-! ### The layout -/

lemma argumentRow {name : String} {t : BoundaryType} {ps : List Parameter}
    (h : Descriptor.argumentParameters name t = .ok ps) : ArgumentRow name t ps := by
  obtain ⟨encoding, hencoding, hps⟩ := bind_eq_ok.mp h
  cases pure_eq_ok.mp hps
  cases t with
  | sequence elem =>
      cases elem with
      | sequence inner =>
          obtain ⟨text, -, hthrow⟩ := bind_eq_ok.mp hencoding
          cases hthrow
      | _ =>
          obtain ⟨inner, -, hinner⟩ := bind_eq_ok.mp hencoding
          cases pure_eq_ok.mp hinner
          exact .run _ _
  | unknown => cases hencoding
  | _ =>
      cases hencoding
      exact .single _ rfl

lemma outRow {fallible : Bool} {ret : Option BoundaryType} {ps : List Parameter}
    (h : Descriptor.resultParameters fallible ret = .ok ps) : OutRow fallible ret ps := by
  cases ret with
  | none =>
      cases h
      exact .none fun t ht => (nomatch ht)
  | some t =>
      cases t with
      | primitive name =>
          cases fallible <;> cases h
          · exact .none fun t ht => ⟨rfl, name, (Option.mem_some.mp ht).symm⟩
          · exact .pointer _ (Or.inl rfl) rfl
      | sequence elem =>
          obtain ⟨encoding, hencoding, hps⟩ := bind_eq_ok.mp h
          cases pure_eq_ok.mp hps
          cases elem with
          | sequence inner =>
              obtain ⟨text, -, hthrow⟩ := bind_eq_ok.mp hencoding
              cases hthrow
          | enum name variants => cases hencoding
          | _ =>
              cases hencoding
              exact .run _ _
      | enum name variants => cases h
      | unknown => cases h
      | _ =>
          cases h
          exact .pointer _ (Or.inr fun _ => nofun) rfl

/-- The parameters of the wrapper: the receiver, the arguments in their order, and the
out-pointers. -/
lemma exists_rows {d : Descriptor} {params : List Parameter} (h : d.parameters = .ok params) :
    ∃ args outs, params = (if d.hasReceiver then [.receiver] else []) ++ args.flatten ++ outs ∧
      List.Forall₂ (fun a ps => ArgumentRow a.1 a.2 ps) d.args args ∧
      OutRow d.fallible d.ret outs := by
  obtain ⟨args, hargs, h⟩ := bind_eq_ok.mp h
  obtain ⟨outs, houts, h⟩ := bind_eq_ok.mp h
  refine ⟨args, outs, (pure_eq_ok.mp h).symm, ?_, outRow houts⟩
  exact (mapM_eq_ok.mp hargs).imp fun _ _ => argumentRow

/-- The names of an argument's parameters are those that were kept for it. -/
lemma ArgumentRow.map_name_eq {a : String × BoundaryType} {ps : List Parameter}
    (h : ArgumentRow a.1 a.2 ps) : ps.map Parameter.name = Descriptor.slotNames a := by
  obtain ⟨name, t⟩ := a
  cases h with
  | run elem scalar => rfl
  | single scalar hrun =>
      cases t with
      | sequence elem => cases hrun
      | _ => rfl

/-- The out-pointers have names that are kept for them. -/
lemma OutRow.names {fallible : Bool} {ret : Option BoundaryType} {ps : List Parameter}
    (h : OutRow fallible ret ps) :
    (ps.map Parameter.name).Sublist [resultName, resultLengthName] := by
  cases h with
  | none _ => exact List.nil_sublist _
  | pointer scalar _ _ => exact (List.nil_sublist _).cons_cons resultName
  | run elem scalar => exact List.Sublist.refl _

namespace Descriptor

variable {d : Descriptor}

/-- No length beside a run is called as a wrapper calls its own names: `return_len` would go with an
argument that is called like a keyword. -/
lemma companionName_notMem_reservedNames {name : String} (h : Name.IsName name) :
    companionName name ∉ reservedNames := by
  intro hmem
  rw [reservedNames, List.mem_cons, List.mem_cons, List.mem_cons, List.mem_singleton] at hmem
  rcases hmem with heq | heq | heq | heq
  · exact companionName_ne_of_getLast? (by decide) heq
  · exact companionName_ne_of_getLast? (by decide) heq
  · have hname : name = "return" := by
      have hsplit : resultLengthName = "return" ++ "_len" := by decide
      rw [hsplit, companionName] at heq
      exact String.append_left_inj _ |>.mp heq
    exact h.notKeyword (hname ▸ by decide)
  · exact companionName_ne_of_getLast? (by decide) heq

lemma notMem_reservedNames_of_mem_slotNames (hd : d.Acceptable) {a : String × BoundaryType}
    (ha : a ∈ d.args) {n : String} (hn : n ∈ slotNames a) : n ∉ reservedNames := by
  obtain ⟨hname, hfree⟩ := hd.argNames a ha
  obtain ⟨name, t⟩ := a
  cases t with
  | sequence elem =>
      rcases List.mem_cons.mp hn with rfl | hn
      · exact hfree
      · rw [List.mem_singleton.mp hn]
        exact companionName_notMem_reservedNames hname
  | _ =>
      rw [List.mem_singleton.mp hn]
      exact hfree

lemma fst_mem_slotNames (a : String × BoundaryType) : a.1 ∈ slotNames a := by
  obtain ⟨name, t⟩ := a
  cases t <;> exact List.mem_cons_self

lemma companionName_mem_slotNames {a : String × BoundaryType} (h : a.2.isRun = true) :
    companionName a.1 ∈ slotNames a := by
  obtain ⟨name, t⟩ := a
  cases t with
  | sequence elem => exact List.mem_cons_of_mem _ List.mem_cons_self
  | _ => cases h

/-- A name is a slot of one argument at most. -/
lemma eq_of_mem_slotNames (hd : d.Acceptable) {a b : String × BoundaryType} (ha : a ∈ d.args)
    (hb : b ∈ d.args) {n : String} (hna : n ∈ slotNames a) (hnb : n ∈ slotNames b) : a = b := by
  have hone : d.args.Pairwise fun a b => ∀ n, n ∈ slotNames a → n ∈ slotNames b → a = b :=
    (List.nodup_flatMap.mp hd.distinct).2.imp fun hdisjoint _ hna hnb => (hdisjoint hna hnb).elim
  have hflip : d.args.Pairwise fun a b => ∀ n, n ∈ slotNames b → n ∈ slotNames a → b = a :=
    hone.imp fun h n hnb hna => (h n hna hnb).symm
  exact hone.forall_of_forall_of_flip (fun _ _ _ _ _ => rfl) hflip ha hb n hna hnb

/-- The names of all the parameters. -/
lemma map_name_eq {params : List Parameter} {args : List (List Parameter)} {outs : List Parameter}
    (hparams : params = (if d.hasReceiver then [.receiver] else []) ++ args.flatten ++ outs)
    (hargs : List.Forall₂ (fun a ps => ArgumentRow a.1 a.2 ps) d.args args) :
    params.map Parameter.name = (if d.hasReceiver then [receiverName] else []) ++
      d.args.flatMap slotNames ++ outs.map Parameter.name := by
  have hslots : args.flatten.map Parameter.name = d.args.flatMap slotNames := by
    rw [List.map_flatten, ← List.flatMap_def]
    exact (Listwise.flatMap_eq hargs fun _ _ h => h.map_name_eq.symm).symm
  rw [hparams, List.map_append, List.map_append, hslots]
  cases d.hasReceiver <;> rfl

/-- The parameters have names of their own. -/
lemma nodup_map_name (hd : d.Acceptable) {params : List Parameter} {args : List (List Parameter)}
    {outs : List Parameter}
    (hparams : params = (if d.hasReceiver then [.receiver] else []) ++ args.flatten ++ outs)
    (hargs : List.Forall₂ (fun a ps => ArgumentRow a.1 a.2 ps) d.args args)
    (houts : OutRow d.fallible d.ret outs) : (params.map Parameter.name).Nodup := by
  have hfree : ∀ n ∈ d.args.flatMap slotNames, n ∉ reservedNames := by
    intro n hn
    obtain ⟨a, ha, hna⟩ := List.mem_flatMap.mp hn
    exact notMem_reservedNames_of_mem_slotNames hd ha hna
  have hreceiver : (if d.hasReceiver then [receiverName] else []).Sublist [receiverName] := by
    split
    · exact List.Sublist.refl _
    · exact List.nil_sublist _
  have hall : ([receiverName] ++ d.args.flatMap slotNames ++
      [resultName, resultLengthName]).Nodup := by
    refine List.Nodup.append (List.Nodup.append (List.nodup_singleton _) hd.distinct ?_)
      (by decide) ?_
    · rw [List.singleton_disjoint]
      exact fun h => hfree _ h (by decide)
    · intro n hn hout
      rcases List.mem_append.mp hn with hn | hn
      · rw [List.mem_singleton.mp hn] at hout
        revert hout
        decide
      · refine hfree n hn ?_
        have hsub : [resultName, resultLengthName] ⊆ reservedNames := by decide
        exact hsub hout
  rw [map_name_eq hparams hargs]
  exact ((hreceiver.append (List.Sublist.refl _)).append houts.names).nodup hall

/-! ### The handles -/

/-- The handles are the receiver and the arguments that cross as handles. -/
lemma map_name_handles (hd : d.Acceptable) :
    d.handles.map Handle.name = (if d.hasReceiver then [receiverName] else []) ++
      (d.args.filter (·.2.isHandle)).map Prod.fst := by
  have hreceiver : d.receiverHandles.map Handle.name =
      if d.hasReceiver then [receiverName] else [] := by
    cases howner : d.owner with
    | none =>
        have hnone : ¬d.hasReceiver = true := fun h => hd.receiver h howner
        rw [receiverHandles.eq_def, howner, if_neg hnone]
        rfl
    | some owner =>
        rw [receiverHandles.eq_def, howner, hasReceiver]
        cases d.receiver <;> rfl
  have hargs : ∀ l : List (String × BoundaryType),
      (l.flatMap fun a => a.2.handles a.1).map Handle.name =
        (l.filter (·.2.isHandle)).map Prod.fst := by
    intro l
    induction l with
    | nil => rfl
    | cons a l ih =>
        obtain ⟨name, t⟩ := a
        rw [List.flatMap_cons, List.map_append, ih]
        cases t <;> simp [BoundaryType.handles, BoundaryType.isHandle]
  rw [handles, List.map_append, hreceiver, hargs]

end Descriptor

/-! ### What is read -/

lemma Name.IsName.ne_comma {name : String} (h : Name.IsName name) : ∀ c ∈ name.toList, c ≠ ',' := by
  rintro c hc rfl
  rcases h.isContinue_or_eq hc with h | h <;> revert h <;> decide

/-- A slice is made of the two names that stand in its text. -/
lemma viewParts?_eq {name : String} (hname : ∀ c ∈ name.toList, c ≠ ',') :
    viewParts? ("std::slice::from_raw_parts(" ++ name ++ ", " ++ companionName name ++ ")") =
      some (name, name ++ "_len") := by
  have hsplit : viewOpening.toList ++ (name.toList ++
      (',' :: ' ' :: ((companionName name).toList ++ [')']))) =
        ("std::slice::from_raw_parts(" ++ name ++ ", " ++ companionName name ++ ")").toList := by
    simp [viewOpening]
  have hpos : ∀ c ∈ name.toList, decide (c ≠ ',') = true := fun c hc => decide_eq_true (hname c hc)
  rw [viewParts?, List.isPrefixOf?_eq_some_iff_append_eq.mpr hsplit]
  dsimp only
  rw [List.takeWhile_append_of_pos hpos, List.dropWhile_append_of_pos hpos]
  simp [companionName]

/-- The names under which values come in one by one. -/
def Descriptor.ownNames (d : Descriptor) : List String :=
  (if d.hasReceiver then [receiverName] else []) ++ d.args.map Prod.fst

/-- What a statement on a way out reads: nothing, one value under its own name, an out-pointer, or a
run with its length. -/
inductive ReadRow (d : Descriptor) (outs : List String) :
    Option (String × String) → List String → Prop where
  | nothing : ReadRow d outs none []
  | own {name : String} (mem : name ∈ d.ownNames) : ReadRow d outs none [name]
  | out {name : String} (mem : name ∈ outs) : ReadRow d outs none [name]
  | run {a : String × BoundaryType} (mem : a ∈ d.args) (isRun : a.2.isRun = true) :
      ReadRow d outs (some (a.1, companionName a.1)) [a.1, companionName a.1]

/-- A statement reads as one of the rows says. -/
def Statement.ReadsIn (d : Descriptor) (outs : List String) (call : String) (s : Statement) :
    Prop :=
  ReadRow d outs s.viewed? (s.parameterReads call)

lemma viewed?_of_onlyOf {l : List Statement} {kinds : List StatementKind} (hl : OnlyOf kinds l)
    (h : .bind ∉ kinds) : ∀ s ∈ l, s.viewed? = none := by
  intro s hs
  have hkind := hl.ne h s hs
  cases s <;> first | rfl | exact absurd rfl hkind

/-- What is written through the out-pointers makes no slice. -/
lemma viewed?_of_mem_stores {fallible : Bool} {ret : Option BoundaryType} {stores : List Statement}
    (h : Descriptor.storeResult fallible ret = .ok stores) : ∀ s ∈ stores, s.viewed? = none := by
  cases ret with
  | none =>
      cases h
      exact fun s hs => absurd hs List.not_mem_nil
  | some t =>
      cases t with
      | primitive name => cases fallible <;> cases h <;> simp [Statement.viewed?]
      | struct name params =>
          cases h
          exact List.forall_mem_singleton.mpr rfl
      | sharedRef inner =>
          obtain ⟨text, -, h⟩ := bind_eq_ok.mp h
          cases h
          exact List.forall_mem_singleton.mpr rfl
      | mutRef inner =>
          obtain ⟨text, -, h⟩ := bind_eq_ok.mp h
          cases h
          exact List.forall_mem_singleton.mpr rfl
      | sequence elem =>
          cases h
          refine List.forall_mem_cons.mpr ⟨?_, by simp [Statement.viewed?]⟩
          simp [Statement.viewed?, viewParts?, viewOpening, valueName, List.isPrefixOf?]
      | enum name variants => cases h
      | unknown => cases h

section Reads

variable {d : Descriptor} {outs : List String} {call : String}

lemma readsIn_of_onlyOf {l : List Statement} {kinds : List StatementKind} (hl : OnlyOf kinds l)
    (h : ∀ kind ∈ kinds, kind ∈ [.openFunction, .closeScope, .arm, .armBlock, .line, .call]) :
    ∀ s ∈ l, s.ReadsIn d outs call := by
  intro s hs
  have hkind := h s.kind (hl s hs)
  cases s <;> first | exact .nothing | simp [Statement.kind] at hkind

lemma name_mem_ownNames (hd : d.Acceptable) {h : Handle} (hh : h ∈ d.handles) :
    h.name ∈ d.ownNames := by
  have hmem := List.mem_map_of_mem (f := Handle.name) hh
  rw [Descriptor.map_name_handles hd] at hmem
  exact ((List.filter_sublist.map Prod.fst).append_left _).subset hmem

lemma RebuildRow.readsIn {a : String × BoundaryType} {r : Rebuilt} (h : RebuildRow a.1 a.2 r)
    (ha : a ∈ d.args) (hname : Name.IsName a.1) : ∀ s ∈ r.steps, s.ReadsIn d outs call := by
  have hown : a.1 ∈ d.ownNames := List.mem_append_right _ (List.mem_map_of_mem ha)
  obtain ⟨name, t⟩ := a
  cases h with
  | scalar u => exact fun s hs => absurd hs List.not_mem_nil
  | handle h text hhandles hself htext => exact List.forall_mem_singleton.mpr (.own (hself ▸ hown))
  | run elem text htext =>
      refine List.forall_mem_singleton.mpr ?_
      rw [Statement.ReadsIn, Statement.viewed?, Statement.parameterReads,
        viewParts?_eq hname.ne_comma]
      exact .run ha rfl
  | ordinal u vs =>
      have hmatch : (Statement.openMatch name
          ((List.range vs.length).map (fun k => toString k) ++ ["_"]) (some name)).ReadsIn d outs
            call := by
        rw [Statement.ReadsIn, Statement.parameterReads]
        split
        · exact .nothing
        · exact .own hown
      exact List.forall_mem_cons.mpr ⟨hmatch, readsIn_of_onlyOf (onlyOf_enumArms u vs) (by simp)⟩

/-- A handle that is taken back or handed out is read under its own name. -/
lemma readsIn_releases (hd : d.Acceptable) :
    ∀ s ∈ Handle.releases d.handles, s.ReadsIn d outs call := by
  intro s hs
  obtain ⟨h, hh, rfl⟩ := List.mem_map.mp hs
  exact .own (name_mem_ownNames hd (List.filter_sublist.subset hh))

lemma ReceiverRow.readsIn (hd : d.Acceptable) {r : Rebuilt} (h : ReceiverRow d r) :
    ∀ s ∈ r.steps, s.ReadsIn d outs call := by
  cases h with
  | none hhandles => exact fun s hs => absurd hs List.not_mem_nil
  | handle h text hhandles hname htext =>
      have hmem : h ∈ d.handles := List.mem_append_left _ (hhandles ▸ List.mem_cons_self)
      exact List.forall_mem_singleton.mpr (.own (name_mem_ownNames hd hmem))

/-- A length is read where its slice is made. -/
lemma ReadRow.eq_of_companionName_mem (hd : d.Acceptable)
    (houts : ∀ name ∈ outs, name ∈ [resultName, resultLengthName])
    {view : Option (String × String)} {names : List String} (h : ReadRow d outs view names)
    {a : String × BoundaryType} (ha : a ∈ d.args) (hrun : a.2.isRun = true)
    (hmem : companionName a.1 ∈ names) : view = some (a.1, companionName a.1) := by
  have hslot := Descriptor.companionName_mem_slotNames hrun
  have hfree := Descriptor.notMem_reservedNames_of_mem_slotNames hd ha hslot
  -- an argument whose own name is the length of `a` is `a` itself, but a length has another name
  have hown : ∀ b ∈ d.args, companionName a.1 ≠ b.1 := by
    intro b hb heq
    have hfst := Descriptor.fst_mem_slotNames b
    rw [← heq] at hfst
    rw [← Descriptor.eq_of_mem_slotNames hd ha hb hslot hfst] at heq
    exact Descriptor.companionName_ne _ heq
  cases h with
  | nothing => exact absurd hmem List.not_mem_nil
  | own hname =>
      rw [← List.mem_singleton.mp hmem, Descriptor.ownNames, List.mem_append] at hname
      rcases hname with hname | hname
      · split at hname
        · rw [List.mem_singleton.mp hname] at hfree
          exact absurd (by decide) hfree
        · exact absurd hname List.not_mem_nil
      · obtain ⟨b, hb, heq⟩ := List.mem_map.mp hname
        exact absurd heq.symm (hown b hb)
  | out hname =>
      rw [← List.mem_singleton.mp hmem] at hname
      have hsub : [resultName, resultLengthName] ⊆ reservedNames := by decide
      exact absurd (hsub (houts _ hname)) hfree
  | @run b hb hbrun =>
      rcases List.mem_cons.mp hmem with heq | hmem
      · exact absurd heq (hown b hb)
      · have hbslot := Descriptor.companionName_mem_slotNames hbrun
        rw [← List.mem_singleton.mp hmem] at hbslot
        rw [Descriptor.eq_of_mem_slotNames hd ha hb hslot hbslot]

end Reads

/-- A slice is made where an argument is a run. -/
lemma RebuildRow.filterMap_viewed {name : String} {t : BoundaryType} {r : Rebuilt}
    (h : RebuildRow name t r) (hname : Name.IsName name) :
    r.steps.filterMap Statement.viewed? =
      if t.isRun then [(name, name ++ "_len")] else [] := by
  cases h with
  | scalar u => rfl
  | handle h text hhandles hself htext =>
      cases t with
      | sequence elem => cases hhandles
      | _ => rfl
  | run elem text htext =>
      have hview : (Statement.bind name ("std::slice::from_raw_parts(" ++ name ++ ", " ++
          companionName name ++ ")") false (some ("&[" ++ text ++ "]")) true).viewed? =
            some (name, name ++ "_len") := viewParts?_eq hname.ne_comma
      rw [List.filterMap_cons_some hview]
      rfl
  | ordinal u vs =>
      exact List.filterMap_eq_nil_iff.mpr
        (viewed?_of_onlyOf (onlyOf_decodeEnum name u vs) (by simp))

/-! ### Every way out -/

namespace Assembly

variable {d : Descriptor} (a : Assembly d)

/-- The names of the out-pointers. -/
def outNames : List String := a.signature.outs.map Prod.fst

lemma outNames_subset : a.outNames ⊆ a.params.map Parameter.name := by
  intro name hname
  obtain ⟨out, hout, rfl⟩ := List.mem_map.mp hname
  obtain ⟨p, hp, heq⟩ := List.mem_filterMap.mp hout
  refine List.mem_map.mpr ⟨p, hp, ?_⟩
  cases p with
  | receiver => cases heq
  | named name scalar role =>
      cases role <;> cases heq <;> rfl

/-- Slices are made before the call. -/
lemma filterMap_viewed_before (hd : d.Acceptable) : a.before.filterMap Statement.viewed? =
    (d.args.filter (·.2.isRun)).map fun b => (b.1, b.1 ++ "_len") := by
  have hreceiver : a.receiver.steps.filterMap Statement.viewed? = [] :=
    List.filterMap_eq_nil_iff.mpr
      (viewed?_of_onlyOf (receiverRow a.receiver_eq).onlyOf.1 (by simp))
  rw [before, List.filterMap_cons_none rfl, steps, List.filterMap_append, hreceiver,
    List.nil_append]
  exact Listwise.filterMap_flatMap_eq a.args_eq fun b hb r hr =>
    (rebuildRow hr).filterMap_viewed (hd.argNames b hb).1

lemma readsIn_of_mem_before (hd : d.Acceptable) :
    ∀ s ∈ a.before, s.ReadsIn d a.outNames a.call := by
  refine List.forall_mem_cons.mpr ⟨.nothing, List.forall_mem_append.mpr
    ⟨(receiverRow a.receiver_eq).readsIn hd, fun s hs => ?_⟩⟩
  obtain ⟨r, hr, hs⟩ := List.mem_flatMap.mp hs
  obtain ⟨arg, harg, hrow⟩ := a.exists_rebuildRow hr
  exact hrow.readsIn harg (hd.argNames arg harg).1 s hs

lemma readsIn_callStatement : a.callStatement.ReadsIn d a.outNames a.call := by
  rw [callStatement]
  split
  · rw [Statement.ReadsIn, Statement.parameterReads, if_pos rfl]
    exact .nothing
  · exact .nothing

lemma readsIn_releases (hd : d.Acceptable) :
    ∀ s ∈ a.releases, s.ReadsIn d a.outNames a.call := by
  rw [a.releases_eq]
  exact AbiBridge.readsIn_releases hd

/-- The writes read the out-pointers. -/
lemma readsIn_stores (hd : d.Acceptable) : ∀ s ∈ a.stores, s.ReadsIn d a.outNames a.call := by
  intro s hs
  have hview := viewed?_of_mem_stores a.stores_eq s hs
  have hkind := a.onlyOf_stores s hs
  cases s with
  | bind name value isMutable typeName unchecked =>
      rw [Statement.viewed?] at hview
      rw [Statement.ReadsIn, Statement.viewed?, Statement.parameterReads, hview]
      exact .nothing
  | storeOut pointer value =>
      have hstored : (pointer, value) ∈ a.stores.filterMap Statement.stored? :=
        List.mem_filterMap.mpr ⟨_, hs, rfl⟩
      have hperm := (resultRow hd a).stored_perm
      exact .out (hperm.mem_iff.mp (List.mem_map_of_mem hstored))
  | _ => simp [Statement.kind] at hkind

lemma scoped_append (hd : d.Acceptable) {back : List Statement}
    (hback : OnlyOf [.arm, .armBlock, .closeScope, .bind, .storeOut, .line, .release] back)
    (hview : ∀ s ∈ back, s.viewed? = none)
    (hreads : ∀ s ∈ back, s.ReadsIn d a.outNames a.call) :
    Scoped d (a.params.map Parameter.name) a.call (a.before ++ a.callStatement :: back) := by
  obtain ⟨args, outs, hparams, hargs, houts⟩ := exists_rows a.params_eq
  have hnames := Descriptor.map_name_eq hparams hargs
  have hreads : ∀ s ∈ a.before ++ a.callStatement :: back, s.ReadsIn d a.outNames a.call :=
    List.forall_mem_append.mpr ⟨a.readsIn_of_mem_before hd,
      List.forall_mem_cons.mpr ⟨a.readsIn_callStatement, hreads⟩⟩
  have hslot : ∀ b ∈ d.args, Descriptor.slotNames b ⊆ a.params.map Parameter.name := by
    intro b hb n hn
    rw [hnames]
    exact List.mem_append_left _ (List.mem_append_right _ (List.mem_flatMap.mpr ⟨b, hb, hn⟩))
  constructor
  case declared =>
    intro s hs name hname
    have hrow := hreads s hs
    rw [Statement.ReadsIn] at hrow
    generalize s.viewed? = view at hrow
    generalize s.parameterReads a.call = names at hrow hname
    cases hrow with
    | nothing => exact absurd hname List.not_mem_nil
    | own hown =>
        rw [← List.mem_singleton.mp hname] at hown
        rcases List.mem_append.mp hown with hown | hown
        · rw [hnames]
          exact List.mem_append_left _ (List.mem_append_left _ hown)
        · obtain ⟨b, hb, rfl⟩ := List.mem_map.mp hown
          exact hslot b hb (Descriptor.fst_mem_slotNames b)
    | out hout =>
        rw [← List.mem_singleton.mp hname] at hout
        exact a.outNames_subset hout
    | @run b hb hrun =>
        rcases List.mem_cons.mp hname with rfl | hname
        · exact hslot b hb (Descriptor.fst_mem_slotNames b)
        · rw [List.mem_singleton.mp hname]
          exact hslot b hb (Descriptor.companionName_mem_slotNames hrun)
  case reclaimed => rw [a.filterMap_reclaimed_append hback, Descriptor.map_name_handles hd]
  case viewed =>
    have hcall : [a.callStatement].filterMap Statement.viewed? = [] :=
      List.filterMap_eq_nil_iff.mpr (viewed?_of_onlyOf a.onlyOf_callStatement (by simp))
    rw [← List.singleton_append, List.filterMap_append, List.filterMap_append, hcall,
      List.filterMap_eq_nil_iff.mpr hview, List.append_nil, List.append_nil]
    exact a.filterMap_viewed_before hd
  case lengths =>
    intro b hb hrun s hs hmem
    exact (hreads s hs).eq_of_companionName_mem hd (resultRow hd a).mem_names hb hrun hmem
  case called_once =>
    exact a.length_filter_evaluates_append hd (hback.evaluates_eq_false (by simp) (by simp) a.call)

/-- The way to the end. -/
lemma scoped_success (hd : d.Acceptable) :
    Scoped d (a.params.map Parameter.name) a.call a.wrapper.success := by
  rw [a.success_eq]
  refine a.scoped_append hd a.onlyOf_afterwards ?_ ?_
  · exact List.forall_mem_append.mpr ⟨viewed?_of_onlyOf a.onlyOf_arms (by simp),
      List.forall_mem_append.mpr ⟨viewed?_of_mem_stores a.stores_eq,
        viewed?_of_onlyOf a.onlyOf_ending (by simp)⟩⟩
  · have hend : OnlyOf [.line, .closeScope] (a.last ++ [.closeScope]) :=
      .append (a.onlyOf_last.mono (by simp)) (.cons (by simp [Statement.kind]) .nil)
    exact List.forall_mem_append.mpr ⟨readsIn_of_onlyOf a.onlyOf_arms (by simp),
      List.forall_mem_append.mpr ⟨a.readsIn_stores hd,
        List.forall_mem_append.mpr ⟨a.readsIn_releases hd, readsIn_of_onlyOf hend (by simp)⟩⟩⟩

/-- The way out behind a call that failed. -/
lemma scoped_failure (hd : d.Acceptable) {path : List Statement} (h : path ∈ a.wrapper.failures) :
    Scoped d (a.params.map Parameter.name) a.call path := by
  rw [a.eq_of_mem_failures h]
  refine a.scoped_append hd (a.onlyOf_failure.mono (by simp))
    (viewed?_of_onlyOf a.onlyOf_failure (by simp)) ?_
  exact List.forall_mem_append.mpr ⟨a.readsIn_releases hd, List.forall_mem_singleton.mpr .nothing⟩

end Assembly

lemma BoundaryType.exists_passed_eq (t : BoundaryType) (name : String) :
    ∃ borrow ∈ ["", "&*", "&mut *"], t.passed name = borrow ++ name := by
  cases t with
  | sharedRef inner => exact ⟨"&*", by simp, rfl⟩
  | mutRef inner => exact ⟨"&mut *", by simp, rfl⟩
  | _ => exact ⟨"", by simp, String.empty_append.symm⟩

/-- **Scoping.** Whatever the receiver, the arguments and the result, the parameters of a wrapper
are the receiver, the arguments, each run with its length behind it, and the out-pointers, all under
names of their own; whatever a way out reads as a parameter is one of them; and each of them is
used. -/
theorem wellScoped_of_compile (d : Descriptor) (w : Wrapper) (h : d.compile = .ok w) :
    WellScoped d w := by
  have hd := Descriptor.acceptable_of_compile h
  obtain ⟨a, rfl⟩ := Descriptor.exists_assembly h
  obtain ⟨args, outs, hparams, hargs, houts⟩ := exists_rows a.params_eq
  obtain ⟨front, hcall, hfront⟩ := Descriptor.exists_eq_of_invocation a.call_eq
  constructor
  case layout => exact ⟨args, outs, hparams, hargs, houts⟩
  case nodup_names => exact Descriptor.nodup_map_name hd hparams hargs houts
  case passed =>
    intro b hb
    refine ⟨?_, b.2.exists_passed_eq b.1⟩
    have hmem : b.1 ∈ d.args.flatMap Descriptor.slotNames :=
      List.mem_flatMap.mpr ⟨b, hb, Descriptor.fst_mem_slotNames b⟩
    have hnames := Descriptor.map_name_eq hparams hargs
    exact hnames ▸ List.mem_append_left _ (List.mem_append_right _ hmem)
  case exits =>
    refine ⟨a.call, front, a.expressions_eq ▸ hcall, hfront, ?_⟩
    exact List.forall_mem_cons.mpr ⟨a.scoped_success hd, fun _ => a.scoped_failure hd⟩
  case stored =>
    rw [a.filterMap_stored_success]
    exact (resultRow hd a).stored_perm

theorem wellScoped_exchange :
    ∃ w, Descriptor.exchange.compile = .ok w ∧ WellScoped Descriptor.exchange w :=
  ⟨_, rfl, wellScoped_of_compile Descriptor.exchange _ rfl⟩

end AbiBridge
