import AbiBridge.Failure
import AbiBridge.Proofs.Wrapper.SplicedNames

/-!
Destructors and the checks of a descriptor.

A destructor is made for the types that may own a function, by the checks that a descriptor makes of
its owner. Its symbol is the one asked for, or the owner's name with `_free` behind it, and no check
is made of that.

* `compileDestructor_cases`: how the making of a destructor ends;
* `isName_freeSymbol_iff`: the symbol made from the owner's name is legal up to the line feed that
  may stand behind that name;
* `destructor_followsOwnerRule`: what is accepted, under which symbol, and how the rest is refused.
-/

namespace AbiBridge

open BoundaryType Outcome

/-! ### Symbols -/

/-- The symbol of a destructor when none is asked for. -/
def freeSymbol (owner : String) : String := Name.baseName owner ++ "_free"

/-- The symbol of a destructor; an empty one counts as none asked for. -/
def destructorSymbol (owner : String) : (exportName : Option String) → String
  | some symbol => if symbol = "" then freeSymbol owner else symbol
  | none => freeSymbol owner

/-- No keyword ends as the symbols of destructors do. -/
lemma freeSymbol_notMem_keywords (owner : String) : freeSymbol owner ∉ Name.keywords := by
  have hends : ∀ s ∈ Name.keywords, ¬"_free".toList <:+ s.toList := by decide
  intro hmem
  refine hends _ hmem ?_
  rw [freeSymbol, String.toList_append]
  exact List.suffix_append _ _

/-- A line feed behind the owner's name stands within the symbol, where it is not let through. -/
lemma isName_freeSymbol_iff {owner : String} (h : Name.IsPath owner) :
    Name.IsName (freeSymbol owner) ↔ '\n' ∉ (Name.baseName owner).toList := by
  constructor
  · intro hname hfeed
    have hlast : (freeSymbol owner).toList.getLast? = some 'e' := by
      have hend : "_free".toList.getLast? = some 'e' := by decide
      rw [freeSymbol, String.toList_append, List.getLast?_append, hend]
      rfl
    have hmem : '\n' ∈ (freeSymbol owner).toList := by
      rw [freeSymbol, String.toList_append]
      exact List.mem_append_left _ hfeed
    obtain ⟨word, hword, heq | heq⟩ := hname.wordUpToFeed
    · rw [heq] at hmem
      exact absurd (Name.isContinue_of_isWord hword _ hmem) (by decide)
    · rw [heq, List.getLast?_concat] at hlast
      exact absurd hlast (by decide)
  · intro hfeed
    have hbase := h.isName_baseName.wordUpToFeed.isWord hfeed
    have hword : Name.isWord (freeSymbol owner).toList = true :=
      Name.isWord_append hbase (by decide)
    have hnone : (freeSymbol owner).toList.getLast? ≠ some '\n' := fun hlast =>
      absurd (Name.isContinue_of_isWord hword _ (List.mem_of_getLast? hlast)) (by decide)
    refine ⟨?_, freeSymbol_notMem_keywords owner⟩
    rw [Name.isIdentifier, Name.dropNewline, if_neg hnone]
    exact hword

/-! ### The making of a destructor -/

/-- The search for the placeholder fails only at a type of no known family. -/
lemma faultsAs_mentionsSelf (t : BoundaryType) : FaultsAs (· = .unknownType) t.mentionsSelf := by
  induction t using ind with
  | primitive name => exact .pure _
  | struct name params ih =>
      have hany : FaultsAs (· = .unknownType) (anyMentionsSelf params) := by
        induction params with
        | nil => exact .pure _
        | cons t ts iht =>
            obtain ⟨ht, hts⟩ := List.forall_mem_cons.mp ih
            refine ht.bind fun found => ?_
            cases found with
            | true => exact .pure _
            | false => exact iht hts
      rw [mentionsSelf]
      split
      · exact .pure _
      · exact hany
  | sharedRef inner ih => exact ih
  | mutRef inner ih => exact ih
  | sequence elem ih => exact ih
  | enum name variants => exact .pure _
  | unknown => exact .throw rfl

/-- How the making of a destructor for a struct ends. -/
inductive Destroys (name : String) (params : List BoundaryType) (exportName : Option String) :
    Except DescriptorFault Wrapper → Prop where
  /-- The search for the placeholder met a type of no known family. -/
  | searchFailed (search : (struct name params).mentionsSelf = .error .unknownType) :
      Destroys name params exportName (.error (.illegalType .unknownType))
  | placeholder (search : (struct name params).mentionsSelf = .ok true) :
      Destroys name params exportName (.error (.destructorOwner (some (struct name params))))
  | illegalName {fault : NameFault} (search : (struct name params).mentionsSelf = .ok false)
      (names : (struct name params).checkNames = .error fault) :
      Destroys name params exportName (.error (.illegalName fault))
  | made {w : Wrapper} (named : (struct name params).Named)
      (symbol : w.signature.name = destructorSymbol name exportName) :
      Destroys name params exportName (.ok w)

lemma compileDestructor_cases (name : String) (params : List BoundaryType)
    (exportName : Option String) :
    Destroys name params exportName (compileDestructor (some (struct name params)) exportName) := by
  rw [compileDestructor]
  cases hsearch : (struct name params).mentionsSelf with
  | error fault =>
      cases faultsAs_mentionsSelf _ fault hsearch
      exact .searchFailed hsearch
  | ok found =>
      cases found with
      | true => exact .placeholder hsearch
      | false =>
          cases hnames : (struct name params).checkNames with
          | error fault => exact .illegalName hsearch hnames
          | ok _ =>
              have hnamed := (named_iff _).mpr ⟨hsearch, hnames⟩
              obtain ⟨text, htext⟩ := hnamed.exists_native
              rw [htext]
              refine .made hnamed ?_
              cases exportName <;> rfl

/-- A refusal is for a wrong type exactly if the search for the placeholder failed. -/
lemma Destroys.kind_cases {name : String} {params : List BoundaryType} {exportName : Option String}
    {fault : DescriptorFault} (h : Destroys name params exportName (.error fault)) :
    (struct name params).mentionsSelf = .error .unknownType ∧
        (Failure.descriptor fault).kind = .wrongType ∨
      (struct name params).mentionsSelf ≠ .error .unknownType ∧
        (Failure.descriptor fault).kind = .malformed := by
  cases h with
  | searchFailed hsearch => exact Or.inl ⟨hsearch, rfl⟩
  | placeholder hsearch => exact Or.inr ⟨by rw [hsearch]; exact nofun, rfl⟩
  | illegalName hsearch _ => exact Or.inr ⟨by rw [hsearch]; exact nofun, rfl⟩

/-- Only a struct has a destructor. -/
lemma compileDestructor_of_ne_struct {owner : Option BoundaryType}
    (h : ∀ name params, owner ≠ some (struct name params)) (exportName : Option String) :
    compileDestructor owner exportName = .error (.destructorOwner owner) := by
  rw [compileDestructor.eq_def]
  split
  · next name params => exact absurd rfl (h name params)
  · rfl

/-- There is a destructor for the named structs, whatever symbol is asked for. -/
lemma exists_destructor_iff {owner : Option BoundaryType} {exportName : Option String} :
    (∃ w, compileDestructor owner exportName = .ok w) ↔
      ∃ name params, owner = some (struct name params) ∧ (struct name params).Named := by
  constructor
  · rintro ⟨w, hw⟩
    by_cases howner : ∃ name params, owner = some (struct name params)
    · obtain ⟨name, params, rfl⟩ := howner
      have hcases := compileDestructor_cases name params exportName
      rw [hw] at hcases
      cases hcases with
      | made hnamed _ => exact ⟨name, params, rfl, hnamed⟩
    · rw [compileDestructor_of_ne_struct fun name params heq => howner ⟨name, params, heq⟩] at hw
      cases hw
  · rintro ⟨name, params, rfl, hnamed⟩
    have hcases := compileDestructor_cases name params exportName
    obtain ⟨hsearch, hnames⟩ := (named_iff _).mp hnamed
    generalize compileDestructor _ _ = outcome at hcases ⊢
    cases hcases with
    | searchFailed h => rw [hsearch] at h; cases h
    | placeholder h => rw [hsearch] at h; cases h
    | illegalName _ h => rw [hnames] at h; cases h
    | made _ _ => exact ⟨_, rfl⟩

/-- Owners of descriptors are accepted alike. -/
lemma exists_destructor_iff_checkOwner {owner : Option BoundaryType} {exportName : Option String} :
    (∃ w, compileDestructor owner exportName = .ok w) ↔
      owner ≠ none ∧ ∀ d : Descriptor, d.owner = owner → d.checkOwner = .ok () := by
  rw [exists_destructor_iff]
  constructor
  · rintro ⟨name, params, rfl, hnamed⟩
    refine ⟨Option.some_ne_none _, fun d hd => Descriptor.checkOwner_eq_ok_iff.mpr ?_⟩
    rw [hd]
    refine ⟨fun t ht => ?_, fun _ => Option.some_ne_none _⟩
    cases ht
    exact ⟨⟨name, params, rfl⟩, hnamed⟩
  · rintro ⟨hsome, hall⟩
    obtain ⟨t, rfl⟩ := Option.ne_none_iff_exists'.mp hsome
    have hcheck := hall { funcName := "", owner := some t } rfl
    obtain ⟨⟨name, params, rfl⟩, hnamed⟩ := (Descriptor.checkOwner_eq_ok_iff.mp hcheck).1 t rfl
    exact ⟨name, params, rfl, hnamed⟩

/-! ### The rule for owners -/

/-- What becomes of a destructor. -/
structure FollowsOwnerRule (owner : Option BoundaryType) (exportName : Option String) : Prop where
  /-- There is one for the structs without placeholder all of whose names may be spliced, -/
  accepted : (∃ w, compileDestructor owner exportName = .ok w) ↔
    ∃ name params, owner = some (struct name params) ∧ (struct name params).Named
  /-- which are the owners that a descriptor may have. -/
  agrees : (∃ w, compileDestructor owner exportName = .ok w) ↔
    owner ≠ none ∧ ∀ d : Descriptor, d.owner = owner → d.checkOwner = .ok ()
  /-- It has the symbol that is asked for, whatever that is, -/
  asked : ∀ w symbol, compileDestructor owner exportName = .ok w → exportName = some symbol →
    symbol ≠ "" → w.signature.name = symbol
  /-- or one made from the owner's name, and that is legal exactly if no line feed stands behind the
  name. -/
  unasked : ∀ w name params, compileDestructor owner exportName = .ok w →
    owner = some (struct name params) → exportName = none ∨ exportName = some "" →
      w.signature.name = freeSymbol name ∧
        (Name.IsName w.signature.name ↔ '\n' ∉ (Name.baseName name).toList)
  /-- All other owners are refused as wrong data or as of a wrong type, -/
  refused : ∀ fault, compileDestructor owner exportName = .error fault →
    (Failure.descriptor fault).kind = .malformed ∨ (Failure.descriptor fault).kind = .wrongType
  /-- the latter where the search for the placeholder in a struct meets a type of no known
  family. -/
  wrongType : ∀ fault, compileDestructor owner exportName = .error fault →
    ((Failure.descriptor fault).kind = .wrongType ↔ ∃ name params,
      owner = some (struct name params) ∧ (struct name params).mentionsSelf = .error .unknownType)

/-- **Destructors.** The owners that have a destructor are those that a descriptor may have, and the
others are refused. The symbol that is asked for is not looked at. -/
theorem destructor_followsOwnerRule (owner : Option BoundaryType) (exportName : Option String) :
    FollowsOwnerRule owner exportName := by
  by_cases howner : ∃ name params, owner = some (struct name params)
  · obtain ⟨name, params, rfl⟩ := howner
    have hcases := compileDestructor_cases name params exportName
    refine ⟨exists_destructor_iff, exists_destructor_iff_checkOwner, ?_, ?_, ?_, ?_⟩
    · rintro w symbol hw rfl hsymbol
      rw [hw] at hcases
      cases hcases with
      | made _ hname => rw [hname, destructorSymbol, if_neg hsymbol]
    · rintro w _ _ hw ⟨⟩ hunasked
      rw [hw] at hcases
      cases hcases with
      | made hnamed hname =>
          cases hnamed with
          | struct hpath _ _ =>
              have hfree : destructorSymbol name exportName = freeSymbol name := by
                rcases hunasked with rfl | rfl <;> rfl
              rw [hname, hfree]
              exact ⟨rfl, isName_freeSymbol_iff hpath⟩
    · intro fault hfault
      rw [hfault] at hcases
      exact hcases.kind_cases.elim (fun h => Or.inr h.2) fun h => Or.inl h.2
    · intro fault hfault
      rw [hfault] at hcases
      obtain ⟨hsearch, hkind⟩ | ⟨hsearch, hkind⟩ := hcases.kind_cases
      · exact ⟨fun _ => ⟨name, params, rfl, hsearch⟩, fun _ => hkind⟩
      · rw [hkind]
        refine ⟨nofun, fun ⟨_, _, heq, herror⟩ => ?_⟩
        cases heq
        exact absurd herror hsearch
  · have hnone : ∀ name params, owner ≠ some (struct name params) :=
      fun name params heq => howner ⟨name, params, heq⟩
    have herror := compileDestructor_of_ne_struct hnone exportName
    refine ⟨exists_destructor_iff, exists_destructor_iff_checkOwner, ?_, ?_, ?_, ?_⟩
    · intro w symbol hw
      rw [herror] at hw
      cases hw
    · intro w name params _ heq
      exact absurd heq (hnone name params)
    · intro fault hfault
      rw [herror] at hfault
      cases hfault
      exact Or.inl rfl
    · intro fault hfault
      rw [herror] at hfault
      cases hfault
      exact ⟨nofun, fun ⟨name, params, heq, _⟩ => absurd heq (hnone name params)⟩

/-- A destructor with a keyword for its symbol, which no descriptor may ask for. -/
theorem destructor_exported_as_keyword :
    ∃ w, compileDestructor (some (struct "Pool" [])) (some "fn") = .ok w ∧
      w.signature.name = "fn" ∧ ¬Name.IsName w.signature.name ∧
      Name.check .exportedSymbol "fn" = .error (.keyword .exportedSymbol "fn") :=
  ⟨_, rfl, rfl, fun h => absurd h.notKeyword (by decide), rfl⟩

end AbiBridge
