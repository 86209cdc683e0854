import AbiBridge.Boundary.Token
import AbiBridge.Proofs.Name

/-!
Texts of tokens.

`Token.Spelled ts cs` says that the characters are the tokens in order, with blanks before any of
them, and that no identifier is followed by a character that would make it longer.

* `next?_eq_some_iff`: the token at the head of a text is the longest one;
* `scan_eq_ok_iff`: a text splits into the tokens that it spells, and into no others;
* `Spelled.append`: two spellings one behind the other, where no identifier grows at the seam;
* `tokenize_eq_ok_of_spelled`: blanks at the end do not count, and a spelling has none there.
-/

namespace AbiBridge

open Text Outcome

namespace Token

/-! ### Characters -/

/-- A blank goes on no identifier. -/
lemma isBlank_of_isContinue {c : Char} (h : Name.isContinue c = true) : isBlank c = false := by
  rcases Name.toNat_of_isContinue h with rfl | h
  · decide
  · -- letters and digits stand above the blanks up to the space and below all others
    have hrange : 0x20 < c.toNat ∧ c.toNat < 0x85 := by omega
    simp only [isBlank, blankRanges, List.any_cons, List.any_nil, Bool.or_false,
      Bool.or_eq_false_iff, Bool.and_eq_false_imp, decide_eq_true_eq, decide_eq_false_iff_not,
      Nat.not_le]
    omega

/-- The characters taken away by a predicate, where the next one does not satisfy it. -/
lemma takeWhile_append_eq {p : Char → Bool} {front rest : List Char}
    (hfront : ∀ c ∈ front, p c = true) (hrest : ∀ c ∈ rest.head?, p c = false) :
    (front ++ rest).takeWhile p = front ∧ (front ++ rest).dropWhile p = rest := by
  rw [List.takeWhile_append_of_pos hfront, List.dropWhile_append_of_pos hfront]
  cases rest with
  | nil => simp
  | cons c rest =>
      have hc : p c = false := hrest c rfl
      simp [hc]

/-- What is left by a predicate does not begin with a character that satisfies it. -/
lemma head?_dropWhile {p : Char → Bool} {cs : List Char} :
    ∀ c ∈ (cs.dropWhile p).head?, p c = false := by
  intro c hc
  have hne : cs.dropWhile p ≠ [] := by
    rintro h
    simp [h] at hc
  have hnot := List.head_dropWhile_not p hne
  rw [List.head?_eq_some_head hne] at hc
  cases hc
  exact hnot

/-! ### One token -/

/-- A token that can be written: the text of a name is a word. -/
def IsWritable : Token → Prop
  | name text => Name.isWord text.toList = true
  | doubleColon | ampersand | less | greater | comma | openBracket | closeBracket => True

/-- Whether a token is none of the identifiers. -/
def isSign : Token → Bool
  | name _ => false
  | doubleColon | ampersand | less | greater | comma | openBracket | closeBracket => true

/-- The characters behind a token do not make it longer. -/
def EndsBefore : Token → List Char → Prop
  | name _, rest => ∀ c ∈ rest.head?, Name.isContinue c = false
  | doubleColon, _ | ampersand, _ | less, _ | greater, _ | comma, _ | openBracket, _
  | closeBracket, _ => True

/-- Behind a token, there is nothing or something that does not go on with an identifier. -/
lemma endsBefore_of_forall {t : Token} {rest : List Char}
    (h : ∀ c ∈ rest.head?, Name.isContinue c = false) : t.EndsBefore rest := by
  cases t <;> first | exact h | trivial

/-- No character of a token is a blank. -/
lemma isBlank_of_mem_text {t : Token} (h : t.IsWritable) :
    ∀ c ∈ t.text.toList, isBlank c = false := by
  cases t with
  | name text => exact fun c hc => isBlank_of_isContinue (Name.isContinue_of_isWord h c hc)
  | _ => simp [text, isBlank, blankRanges]

lemma text_ne_nil {t : Token} (h : t.IsWritable) : t.text.toList ≠ [] := by
  cases t with
  | name text =>
      obtain ⟨c, r, hcs, -, -⟩ := Name.isWord_iff.mp h
      rw [Token.text, hcs]
      exact List.cons_ne_nil c r
  | _ => decide

/-- The token at the head of a text is the longest one that stands there. -/
lemma next?_eq_some_iff {cs rest : List Char} {t : Token} :
    next? cs = some (t, rest) ↔
      cs = t.text.toList ++ rest ∧ t.IsWritable ∧ t.EndsBefore rest := by
  constructor
  · intro h
    rw [next?.eq_def] at h
    split at h
    iterate 7
      · cases h
        exact ⟨by simp [text], trivial, trivial⟩
    · next c r _ _ _ _ _ _ _ =>
      split at h
      · next hstart =>
        cases h
        refine ⟨?_, ?_, head?_dropWhile⟩
        · simp [text, List.takeWhile_append_dropWhile]
        · rw [IsWritable, String.toList_ofList]
          exact Name.isWord_iff.mpr ⟨c, _, rfl, hstart, List.all_eq_true.mp List.all_takeWhile⟩
      · cases h
    · cases h
  · rintro ⟨rfl, hwritable, hends⟩
    cases t with
    | name text =>
        obtain ⟨c, r, hcs, hc, hr⟩ := Name.isWord_iff.mp hwritable
        obtain ⟨htake, hdrop⟩ := takeWhile_append_eq hr hends
        have htext : String.ofList (c :: r) = text := by rw [← hcs, String.ofList_toList]
        rw [Token.text, hcs, List.cons_append, next?.eq_def]
        split
        iterate 7
          · next heq =>
            obtain ⟨rfl, -⟩ := List.cons.inj heq
            exact absurd hc (by decide)
        · next heq =>
          obtain ⟨rfl, rfl⟩ := List.cons.inj heq
          rw [if_pos hc, htake, hdrop, htext]
        · next heq => cases heq
    | _ => simp [text, next?]

/-! ### All tokens -/

/-- The characters are the tokens, with blanks before any of them. -/
inductive Spelled : List Token → List Char → Prop where
  | nil : Spelled [] []
  | cons {gap rest : List Char} {t : Token} {ts : List Token}
      (blanks : ∀ c ∈ gap, isBlank c = true) (writable : t.IsWritable)
      (ends : t.EndsBefore rest) (spelled : Spelled ts rest) :
      Spelled (t :: ts) (gap ++ (t.text.toList ++ rest))

/-- Behind blanks, the token at the head of a text. -/
lemma next?_dropWhile_eq_some_iff {cs rest : List Char} {t : Token} :
    next? (cs.dropWhile isBlank) = some (t, rest) ↔
      ∃ gap, cs = gap ++ (t.text.toList ++ rest) ∧ (∀ c ∈ gap, isBlank c = true) ∧
        t.IsWritable ∧ t.EndsBefore rest := by
  rw [next?_eq_some_iff]
  constructor
  · rintro ⟨hdrop, hwritable, hends⟩
    refine ⟨cs.takeWhile isBlank, ?_, List.all_eq_true.mp List.all_takeWhile, hwritable, hends⟩
    rw [← hdrop, List.takeWhile_append_dropWhile]
  · rintro ⟨gap, rfl, hgap, hwritable, hends⟩
    refine ⟨(takeWhile_append_eq hgap fun c hc => ?_).2, hwritable, hends⟩
    rw [List.head?_append_of_ne_nil _ (text_ne_nil hwritable)] at hc
    exact isBlank_of_mem_text hwritable c (List.mem_of_mem_head? hc)

/-- A text without trailing blanks splits into the tokens that it spells. -/
lemma scan_eq_ok_iff {cs : List Char} {ts : List Token} : scan cs = .ok ts ↔ Spelled ts cs := by
  fun_induction scan cs generalizing ts with
  | case1 =>
      constructor
      · intro h
        cases h
        exact .nil
      · intro h
        generalize hcs : ([] : List Char) = cs at h
        cases h with
        | nil => rfl
        | cons _ hwritable _ _ =>
            exact absurd (List.append_eq_nil_iff.mp (List.append_eq_nil_iff.mp hcs.symm).2).1
              (text_ne_nil hwritable)
  | case2 c r hnext =>
      refine ⟨fun h => (nomatch h), fun h => ?_⟩
      generalize hcs : c :: r = cs at h
      cases h with
      | nil => cases hcs
      | cons hgap hwritable hends _ =>
          have hsome := next?_dropWhile_eq_some_iff.mpr ⟨_, hcs, hgap, hwritable, hends⟩
          rw [hnext] at hsome
          cases hsome
  | case3 c r t rest hnext _ ih =>
      constructor
      · intro h
        obtain ⟨ts', hscan, h⟩ := bind_eq_ok.mp h
        cases pure_eq_ok.mp h
        obtain ⟨gap, hcs, hgap, hwritable, hends⟩ := next?_dropWhile_eq_some_iff.mp hnext
        rw [hcs]
        exact .cons hgap hwritable hends (ih.mp hscan)
      · intro h
        generalize hcs : c :: r = cs at h
        cases h with
        | nil => cases hcs
        | cons hgap hwritable hends hspelled =>
            have hsome := next?_dropWhile_eq_some_iff.mpr ⟨_, hcs, hgap, hwritable, hends⟩
            rw [hnext] at hsome
            cases hsome
            exact bind_eq_ok.mpr ⟨_, ih.mpr hspelled, rfl⟩

/-- The tokens of a spelling can all be written. -/
lemma Spelled.isWritable {ts : List Token} {cs : List Char} (h : Spelled ts cs) :
    ∀ t ∈ ts, t.IsWritable := by
  induction h with
  | nil => exact fun t ht => absurd ht List.not_mem_nil
  | cons _ hwritable _ _ ih => exact List.forall_mem_cons.mpr ⟨hwritable, ih⟩

/-- What stands behind a token that was the last one does not make it longer. -/
lemma EndsBefore.append {t : Token} {rest back : List Char} (h : t.EndsBefore rest)
    (hback : ∀ c ∈ back.head?, Name.isContinue c = false) : t.EndsBefore (rest ++ back) := by
  cases rest with
  | nil => exact endsBefore_of_forall hback
  | cons c rest => cases t <;> exact h

/-- Two spellings one behind the other, where no identifier grows at the seam. -/
lemma Spelled.append {ts us : List Token} {cs ds : List Char} (h : Spelled ts cs)
    (h' : Spelled us ds) (hseam : ∀ c ∈ ds.head?, Name.isContinue c = false) :
    Spelled (ts ++ us) (cs ++ ds) := by
  induction h with
  | nil => exact h'
  | cons hgap hwritable hends _ ih =>
      rw [List.append_assoc, List.append_assoc]
      exact .cons hgap hwritable (hends.append hseam) ih

/-- Blanks may stand in front of a spelling. -/
lemma Spelled.blank {ts : List Token} {cs : List Char} {c : Char} (h : Spelled ts cs)
    (hts : ts ≠ []) (hc : isBlank c = true) : Spelled ts (c :: cs) := by
  cases h with
  | nil => exact absurd rfl hts
  | cons hgap hwritable hends hspelled =>
      exact .cons (List.forall_mem_cons.mpr ⟨hc, hgap⟩) hwritable hends hspelled

/-- Two spellings with a blank between them. -/
lemma Spelled.append_blank {ts us : List Token} {cs ds : List Char} {c : Char}
    (h : Spelled ts cs) (h' : Spelled us ds) (hus : us ≠ []) (hc : isBlank c = true) :
    Spelled (ts ++ us) (cs ++ c :: ds) := by
  refine h.append (h'.blank hus hc) fun d hd => ?_
  cases hd
  by_contra hcontinue
  rw [isBlank_of_isContinue (eq_true_of_ne_false hcontinue)] at hc
  cases hc

/-- One token alone. -/
lemma Spelled.singleton {t : Token} (h : t.IsWritable) : Spelled [t] t.text.toList := by
  have hends : t.EndsBefore [] := endsBefore_of_forall fun c hc => (nomatch hc)
  have hspelled := Spelled.cons (fun c hc => absurd hc List.not_mem_nil) h hends .nil
  rwa [List.nil_append, List.append_nil] at hspelled

/-- One word alone. -/
lemma Spelled.word {text : String} (h : Name.isWord text.toList = true) :
    Spelled [name text] text.toList :=
  .singleton (t := name text) h

/-- A token other than an identifier in front of a spelling. -/
lemma Spelled.cons_sign {t : Token} {ts : List Token} {cs : List Char} (h : Spelled ts cs)
    (ht : t.isSign = true) : Spelled (t :: ts) (t.text.toList ++ cs) := by
  have hgap : ∀ c ∈ ([] : List Char), isBlank c = true := fun c hc => absurd hc List.not_mem_nil
  cases t with
  | name text => cases ht
  | _ => exact .cons hgap trivial trivial h

/-- Two spellings with a token other than an identifier between them. -/
lemma Spelled.append_sign {t : Token} {ts us : List Token} {cs ds : List Char}
    (h : Spelled ts cs) (h' : Spelled us ds) (ht : t.isSign = true) :
    Spelled (ts ++ t :: us) (cs ++ (t.text.toList ++ ds)) := by
  refine h.append (h'.cons_sign ht) fun c hc => ?_
  cases t with
  | name text => cases ht
  | _ =>
      cases hc
      decide

/-- A spelling ends in a character other than a blank. -/
lemma Spelled.isBlank_getLast? {ts : List Token} {cs : List Char} (h : Spelled ts cs) :
    ∀ c ∈ cs.getLast?, isBlank c = false := by
  induction h with
  | nil => exact fun c hc => (nomatch hc)
  | @cons gap rest t ts _ hwritable _ _ ih =>
      intro c hc
      rw [List.getLast?_append_of_ne_nil _ (by simp [text_ne_nil hwritable])] at hc
      by_cases hrest : rest = []
      · rw [hrest, List.append_nil] at hc
        exact isBlank_of_mem_text hwritable c (List.mem_of_getLast? hc)
      · rw [List.getLast?_append_of_ne_nil _ hrest] at hc
        exact ih c hc

/-- Blanks at the end do not count, and a spelling has none there. -/
lemma Spelled.trimEnd_eq {ts : List Token} {cs : List Char} (h : Spelled ts cs) :
    trimEnd cs = cs := by
  have hlast := h.isBlank_getLast?
  rcases List.eq_nil_or_concat cs with rfl | ⟨front, c, rfl⟩
  · rfl
  · rw [List.concat_eq_append] at hlast ⊢
    exact trimEnd_concat front (hlast c (by simp))

/-- A text splits into the tokens that it spells. -/
lemma tokenize_eq_ok_of_spelled {ts : List Token} {text : String} (h : Spelled ts text.toList) :
    tokenize text = .ok ts := by
  rw [tokenize, h.trimEnd_eq]
  exact scan_eq_ok_iff.mpr h

/-- The tokens of a text can all be written. -/
lemma isWritable_of_tokenize {ts : List Token} {text : String} (h : tokenize text = .ok ts) :
    ∀ t ∈ ts, t.IsWritable :=
  (scan_eq_ok_iff.mp h).isWritable

end Token

end AbiBridge
