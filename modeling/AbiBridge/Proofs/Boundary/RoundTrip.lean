import AbiBridge.Assoc
import AbiBridge.Boundary.Native
import AbiBridge.Proofs.Boundary.Grammar
import AbiBridge.Proofs.Boundary.Spelling

/-!
Types and their native texts.

A type is `WellFormed` if some text is read as it. The native text of such a type is one of them,
so that a text, read and written again, is read as the same type.

* `Derives.wellFormed`: types that are derived by tokens that can be written are well formed;
* `WellFormed.exists_reading`: the native text of a well-formed type spells tokens that derive it;
* `parse_native_roundTrip`: the types that are read are the well-formed ones, and their native
  texts are read as them.
-/

namespace AbiBridge

open Outcome

namespace BoundaryType

variable {enums : EnumTable}

/-! ### Well-formed types -/

/-- The first segment of the name of a struct or an enum. -/
def firstSegment? : BoundaryType → Option String
  | struct name _ | enum name _ => (Name.segments name).head?
  | primitive _ | sharedRef _ | mutRef _ | sequence _ | unknown => none

/-- A path of words that is the name of no run and of no scalar. -/
structure IsTypePath (name : String) : Prop where
  words : ∃ first others, name = pathText first others ∧
    ∀ s ∈ first :: others, Name.isWord s.toList = true
  notRun : name ≠ "Vec"
  notScalar : name ∉ primitiveNames

/-- The types that have a text. -/
inductive WellFormed (enums : EnumTable) : BoundaryType → Prop where
  | primitive {name : String} (scalar : name ∈ primitiveNames) :
      WellFormed enums (.primitive name)
  | struct {name : String} {params : List BoundaryType} (path : IsTypePath name)
      (notDeclared : name ∉ enums.map Prod.fst) (wellFormed : ∀ p ∈ params, WellFormed enums p) :
      WellFormed enums (.struct name params)
  | sharedRef {inner : BoundaryType} (wellFormed : WellFormed enums inner)
      (notMut : inner.firstSegment? ≠ some "mut") : WellFormed enums (.sharedRef inner)
  | mutRef {inner : BoundaryType} (wellFormed : WellFormed enums inner) :
      WellFormed enums (.mutRef inner)
  | sequence {elem : BoundaryType} (wellFormed : WellFormed enums elem) :
      WellFormed enums (.sequence elem)
  | enum {name : String} {variants : List String} (path : IsTypePath name)
      (declared : enums.lookup name = some variants) : WellFormed enums (.enum name variants)

/-! ### First words -/

/-- The identifiers of a path that can be written are words. -/
lemma isWord_of_isWritable {first : String} {others : List String}
    (h : ∀ tok ∈ pathTokens first others, tok.IsWritable) :
    ∀ s ∈ first :: others, Name.isWord s.toList = true := by
  intro s hs
  refine h (.name s) ?_
  rw [pathTokens, List.mem_cons, List.mem_flatMap]
  rcases List.mem_cons.mp hs with rfl | hs
  · exact Or.inl rfl
  · exact Or.inr ⟨s, hs, by simp⟩

/-- What a path stands for begins with the word `mut` if the path does. -/
lemma Denotes.firstSegment?_eq_mut_iff {first : String} {others : List String}
    {params : List BoundaryType} {t : BoundaryType}
    (h : Denotes enums (pathText first others) params t)
    (hwords : ∀ s ∈ first :: others, Name.isWord s.toList = true) :
    t.firstSegment? = some "mut" ↔ first = "mut" := by
  have hfirst : (Name.segments (pathText first others)).head? = some first := by
    rw [pathText, Name.segments_intercalate hwords]
    rfl
  generalize pathText first others = path at h hfirst
  cases h with
  | run elem =>
      have hrun : first = "Vec" := Option.some.inj (hfirst.symm.trans (by decide))
      simp [firstSegment?, hrun]
  | primitive hscalar =>
      have hnot : ∀ name ∈ primitiveNames, (Name.segments name).head? ≠ some "mut" := by decide
      refine ⟨fun h => (nomatch h), fun h => ?_⟩
      rw [h] at hfirst
      exact absurd hfirst (hnot path hscalar)
  | enum _ _ _ => rw [firstSegment?, hfirst, Option.some.injEq]
  | struct _ _ _ _ => rw [firstSegment?, hfirst, Option.some.injEq]

/-- What begins with the word `mut` is a struct or an enum of such a name. -/
lemma Derives.firstSegment?_eq_mut_iff {ts : List Token} {t : BoundaryType}
    (h : Derives enums ts t) (hts : ∀ tok ∈ ts, tok.IsWritable) :
    t.firstSegment? = some "mut" ↔ ts.head? = some (.name "mut") := by
  cases h with
  | mutRef _ => simp [firstSegment?]
  | sharedRef _ _ => simp [firstSegment?]
  | sequence _ => simp [firstSegment?]
  | path hdenoted =>
      rw [hdenoted.firstSegment?_eq_mut_iff (isWord_of_isWritable hts)]
      simp [pathTokens]
  | applied _ hdenoted =>
      have hpath := fun tok htok => hts tok (List.mem_append_left _ htok)
      rw [hdenoted.firstSegment?_eq_mut_iff (isWord_of_isWritable hpath)]
      simp [pathTokens]

/-! ### Types that are read -/

lemma Denotes.wellFormed {first : String} {others : List String} {params : List BoundaryType}
    {t : BoundaryType} (h : Denotes enums (pathText first others) params t)
    (hwords : ∀ s ∈ first :: others, Name.isWord s.toList = true)
    (hparams : ∀ p ∈ params, WellFormed enums p) : WellFormed enums t := by
  have hpath : ∃ first' others', pathText first others = pathText first' others' ∧
      ∀ s ∈ first' :: others', Name.isWord s.toList = true := ⟨first, others, rfl, hwords⟩
  generalize pathText first others = path at h hpath
  cases h with
  | run elem => exact .sequence (hparams elem List.mem_cons_self)
  | primitive hscalar => exact .primitive hscalar
  | enum hrun hscalar hdeclared => exact .enum ⟨hpath, hrun, hscalar⟩ hdeclared
  | struct _ hrun hscalar hdeclared =>
      exact .struct ⟨hpath, hrun, hscalar⟩ (Assoc.lookup_eq_none_iff.mp hdeclared) hparams

mutual

/-- Tokens that can be written derive well-formed types only. -/
lemma Derives.wellFormed {ts : List Token} {t : BoundaryType} :
    Derives enums ts t → (∀ tok ∈ ts, tok.IsWritable) → WellFormed enums t
  | .mutRef h, hts => .mutRef (h.wellFormed fun tok htok => hts tok (by simp [htok]))
  | .sharedRef h hmut, hts =>
      have hinner := fun tok htok => hts tok (List.mem_cons_of_mem _ htok)
      .sharedRef (h.wellFormed hinner) (mt (h.firstSegment?_eq_mut_iff hinner).mp hmut)
  | .sequence h, hts => .sequence (h.wellFormed fun tok htok => hts tok (by simp [htok]))
  | .path hdenoted, hts =>
      hdenoted.wellFormed (isWord_of_isWritable hts) fun p hp => absurd hp List.not_mem_nil
  | .applied h hdenoted, hts =>
      hdenoted.wellFormed (isWord_of_isWritable fun tok htok => hts tok (by simp [htok]))
        (h.wellFormed fun tok htok => hts tok (by simp [htok]))

lemma DerivesArguments.wellFormed {ts : List Token} {params : List BoundaryType} :
    DerivesArguments enums ts params → (∀ tok ∈ ts, tok.IsWritable) →
      ∀ p ∈ params, WellFormed enums p
  | .last h, hts => List.forall_mem_singleton.mpr (h.wellFormed hts)
  | .cons h hothers, hts =>
      List.forall_mem_cons.mpr ⟨h.wellFormed fun tok htok => hts tok (by simp [htok]),
        hothers.wellFormed fun tok htok => hts tok (by simp [htok])⟩

end

/-! ### Types that are written -/

/-- A text that spells tokens of which a type is derived. -/
def Reads (enums : EnumTable) (text : String) (t : BoundaryType) : Prop :=
  ∃ ts, Token.Spelled ts text.toList ∧ Derives enums ts t

/-- A text that is read as a type. -/
lemma Reads.parse_eq_ok {text : String} {t : BoundaryType} (h : Reads enums text t) :
    parse enums text = .ok t := by
  obtain ⟨ts, hspelled, hderived⟩ := h
  exact parse_eq_ok_iff.mpr ⟨ts, Token.tokenize_eq_ok_of_spelled hspelled, hderived⟩

/-- A path of words spells its tokens. -/
lemma spelled_pathText {first : String} {others : List String}
    (h : ∀ s ∈ first :: others, Name.isWord s.toList = true) :
    Token.Spelled (pathTokens first others) (pathText first others).toList := by
  induction others generalizing first with
  | nil => exact .word (h first List.mem_cons_self)
  | cons s others ih =>
      obtain ⟨hfirst, hothers⟩ := List.forall_mem_cons.mp h
      rw [pathText, String.intercalate_cons_cons, String.toList_append, String.toList_append,
        List.append_assoc]
      exact (Token.Spelled.word hfirst).append_sign (t := .doubleColon) (ih hothers) rfl

/-- The native texts of arguments, joined as they are in a list of arguments. -/
lemma exists_readingAll {params : List BoundaryType} (hne : params ≠ [])
    (h : ∀ p ∈ params, ∃ text, native p = .ok text ∧ Reads enums text p) :
    ∃ text texts ts, nativeAll params = .ok (text :: texts) ∧
      Token.Spelled ts (", ".intercalate (text :: texts)).toList ∧
      DerivesArguments enums ts params := by
  induction params with
  | nil => exact absurd rfl hne
  | cons p params ih =>
      obtain ⟨⟨text, hnative, ts, hspelled, hderived⟩, hparams⟩ := List.forall_mem_cons.mp h
      by_cases hnil : params = []
      · subst hnil
        refine ⟨text, [], ts, ?_, ?_, .last hderived⟩
        · exact bind_eq_ok.mpr ⟨text, hnative, rfl⟩
        · rwa [String.intercalate_singleton]
      · obtain ⟨text', texts, ts', hnatives, hspelled', hderived'⟩ := ih hnil hparams
        refine ⟨text, text' :: texts, _, ?_, ?_, .cons hderived hderived'⟩
        · exact bind_eq_ok.mpr ⟨text, hnative, bind_eq_ok.mpr ⟨_, hnatives, rfl⟩⟩
        · have hblank := hspelled'.blank hderived'.ne_nil (c := ' ') (by decide)
          rw [String.intercalate_cons_cons, String.toList_append, String.toList_append,
            List.append_assoc]
          exact hspelled.append_sign (t := .comma) hblank rfl

/-- A path with arguments between angle brackets spells its tokens. -/
lemma spelled_applied {path text : String} {ts us : List Token}
    (hpath : Token.Spelled ts path.toList) (harguments : Token.Spelled us text.toList) :
    Token.Spelled (ts ++ .less :: (us ++ [.greater])) (path ++ "<" ++ text ++ ">").toList := by
  have hclosed := harguments.append_sign (t := .greater) .nil rfl
  have happlied := hpath.append_sign (t := .less) hclosed rfl
  simpa [Token.text, List.append_assoc] using happlied

/-- The native text of a well-formed type spells tokens of which it is derived. -/
lemma WellFormed.exists_reading {t : BoundaryType} (h : WellFormed enums t) :
    ∃ text, t.native = .ok text ∧ Reads enums text t := by
  induction h with
  | @primitive name hscalar =>
      have hword : ∀ name ∈ primitiveNames, Name.isWord name.toList = true := by decide
      have hdenoted : Denotes enums (pathText name []) [] (.primitive name) := .primitive hscalar
      exact ⟨name, rfl, _, .word (hword name hscalar), .path hdenoted⟩
  | @struct name params hpath hdeclared _ ih =>
      obtain ⟨⟨first, others, rfl, hwords⟩, hrun, hscalar⟩ := hpath
      have hdenoted := Denotes.struct params hrun hscalar (Assoc.lookup_eq_none_iff.mpr hdeclared)
      have hspelled := spelled_pathText hwords
      by_cases hnil : params = []
      · subst hnil
        exact ⟨_, rfl, _, hspelled, .path hdenoted⟩
      · obtain ⟨text, texts, ts, hnatives, harguments, hderived⟩ := exists_readingAll hnil ih
        exact ⟨_, bind_eq_ok.mpr ⟨_, hnatives, rfl⟩, _, spelled_applied hspelled harguments,
          .applied hderived hdenoted⟩
  | @sharedRef inner _ hmut ih =>
      obtain ⟨text, hnative, ts, hspelled, hderived⟩ := ih
      have hfirst := mt (hderived.firstSegment?_eq_mut_iff hspelled.isWritable).mpr hmut
      refine ⟨_, bind_eq_ok.mpr ⟨text, hnative, rfl⟩, _, ?_, .sharedRef hderived hfirst⟩
      rw [String.toList_append]
      exact hspelled.cons_sign (t := .ampersand) rfl
  | @mutRef inner _ ih =>
      obtain ⟨text, hnative, ts, hspelled, hderived⟩ := ih
      have hword : Token.Spelled [.name "mut"] "mut".toList := .word (by decide)
      have hmut := hword.append_blank hspelled hderived.ne_nil (c := ' ') (by decide)
      refine ⟨_, bind_eq_ok.mpr ⟨text, hnative, rfl⟩, _, ?_, .mutRef hderived⟩
      rw [String.toList_append]
      exact hmut.cons_sign (t := .ampersand) rfl
  | @sequence elem _ ih =>
      obtain ⟨text, hnative, ts, hspelled, hderived⟩ := ih
      have hdenoted : Denotes enums (pathText "Vec" []) [elem] (.sequence elem) := .run elem
      have hword : Token.Spelled [.name "Vec"] "Vec".toList := .word (by decide)
      have hspelled := spelled_applied hword hspelled
      refine ⟨_, bind_eq_ok.mpr ⟨text, hnative, rfl⟩, _, ?_, .applied (.last hderived) hdenoted⟩
      rwa [show "Vec" ++ "<" = "Vec<" by decide] at hspelled
  | @enum name variants hpath hdeclared =>
      obtain ⟨⟨first, others, rfl, hwords⟩, hrun, hscalar⟩ := hpath
      exact ⟨_, rfl, _, spelled_pathText hwords, .path (.enum hrun hscalar hdeclared)⟩

/-! ### Round trip -/

/-- **Texts and types.** Whatever the enums, the types that some text is read as are the well-formed
ones, the native text of each of these is read as that very type, and so a text that was read and
written again is read as the same type. -/
theorem parse_native_roundTrip (enums : EnumTable) :
    (∀ t, (∃ text, parse enums text = .ok t) ↔ WellFormed enums t) ∧
      (∀ t, WellFormed enums t → ∃ text, t.native = .ok text ∧ parse enums text = .ok t) ∧
      ∀ text t, parse enums text = .ok t →
        ∃ again, t.native = .ok again ∧ parse enums again = .ok t := by
  have hread : ∀ text t, parse enums text = .ok t → WellFormed enums t := by
    intro text t h
    obtain ⟨ts, hts, hderived⟩ := parse_eq_ok_iff.mp h
    exact hderived.wellFormed (Token.isWritable_of_tokenize hts)
  have hwritten : ∀ t, WellFormed enums t →
      ∃ text, t.native = .ok text ∧ parse enums text = .ok t := by
    intro t h
    obtain ⟨text, hnative, hreads⟩ := h.exists_reading
    exact ⟨text, hnative, hreads.parse_eq_ok⟩
  refine ⟨fun t => ⟨?_, ?_⟩, hwritten, fun text t h => hwritten t (hread text t h)⟩
  · rintro ⟨text, h⟩
    exact hread text t h
  · intro h
    obtain ⟨text, -, hparse⟩ := hwritten t h
    exact ⟨text, hparse⟩

end BoundaryType

end AbiBridge
