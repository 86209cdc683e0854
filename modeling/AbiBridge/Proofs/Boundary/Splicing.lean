import AbiBridge.Boundary.Placeholder
import AbiBridge.Proofs.Boundary.Spelling
import Mathlib.Data.List.TakeWhile

/-!
Texts in which the placeholder is written out.

A placeholder in a text is the identifier `Self` that is no segment of a longer path and has no
arguments behind it. `Token.splice` puts other tokens in its place, and `Token.spliceText` another
text, which is what an author does who writes the owner out by hand.

* `Padded`: the characters are the tokens, with blanks around them, so that nothing is said about
  the blanks at the end of a text;
* `padded_append_iff`: the tokens of two texts, one behind the other;
* `tokenize_spliceText`: the tokens of a text with the owner's text in the place of the placeholders
  are those of the text with the owner's tokens in their place.
-/

namespace AbiBridge

open Text Outcome

namespace Token

/-! ### Placeholders -/

/-- Whether a token is the placeholder: it stands alone, with no double colon on either side and no
arguments behind it. `joined` says whether there is a double colon before it, and `next` is the
token behind it. -/
def isPlaceholder (joined : Bool) (t : Token) (next : Option Token) : Bool :=
  t = name selfPlaceholder && !joined && next ≠ some doubleColon && next ≠ some less

/-- The tokens with those of the owner in the place of every placeholder. -/
def splice (owner : List Token) : (joined : Bool) → List Token → List Token
  | _, [] => []
  | joined, t :: ts =>
      if isPlaceholder joined t ts.head? then owner ++ splice owner false ts
      else t :: splice owner (t = doubleColon) ts

/-- The token behind the blanks at the head of a text. -/
def nextToken? (cs : List Char) : Option Token := (next? (cs.dropWhile isBlank)).map Prod.fst

/-- The characters with those of the owner in the place of every placeholder, as far as there are
tokens. -/
def spliceChars (owner : List Char) (joined : Bool) (cs : List Char) : List Char :=
  match h : next? (cs.dropWhile isBlank) with
  | none => cs
  | some (t, rest) =>
      have : rest.length < cs.length :=
        Nat.lt_of_lt_of_le (next?_length h) (List.dropWhile_sublist isBlank).length_le
      cs.takeWhile isBlank ++
        if isPlaceholder joined t (nextToken? rest) then owner ++ spliceChars owner false rest
        else t.text.toList ++ spliceChars owner (t = doubleColon) rest
  termination_by cs.length

/-- A text with that of the owner in the place of every placeholder. -/
def spliceText (owner text : String) : String :=
  String.ofList (spliceChars owner.toList false text.toList)

lemma isPlaceholder_iff {joined : Bool} {t : Token} {next : Option Token} :
    isPlaceholder joined t next = true ↔
      t = name selfPlaceholder ∧ joined = false ∧ next ≠ some doubleColon ∧ next ≠ some less := by
  simp [isPlaceholder, and_assoc]

section Splice

variable {owner : List Token} {joined : Bool} {t : Token} {ts : List Token}

lemma splice_cons_of_isPlaceholder (h : isPlaceholder joined t ts.head? = true) :
    splice owner joined (t :: ts) = owner ++ splice owner false ts := by
  rw [splice, if_pos h]

lemma splice_cons (h : isPlaceholder joined t ts.head? = false) :
    splice owner joined (t :: ts) = t :: splice owner (t = doubleColon) ts := by
  rw [splice, if_neg (ne_true_of_eq_false h)]

/-- A token other than an identifier is no placeholder. -/
lemma isPlaceholder_of_isSign {next : Option Token} (h : t.isSign = true) :
    isPlaceholder joined t next = false := by
  cases t with
  | name text => cases h
  | _ => rfl

/-- What stands behind a double colon is left as it is. -/
lemma isPlaceholder_of_joined {next : Option Token} : isPlaceholder true t next = false := by
  simp [isPlaceholder]

end Splice

/-! ### Characters with blanks around the tokens -/

/-- The characters are the tokens, with blanks before any of them and behind the last one. -/
inductive Padded : List Token → List Char → Prop where
  | nil {gap : List Char} (blanks : ∀ c ∈ gap, isBlank c = true) : Padded [] gap
  | cons {gap rest : List Char} {t : Token} {ts : List Token}
      (blanks : ∀ c ∈ gap, isBlank c = true) (writable : t.IsWritable)
      (ends : t.EndsBefore rest) (padded : Padded ts rest) :
      Padded (t :: ts) (gap ++ (t.text.toList ++ rest))

/-- Blanks are no part of an identifier. -/
lemma isContinue_head?_of_blanks {gap : List Char} (h : ∀ c ∈ gap, isBlank c = true) :
    ∀ c ∈ gap.head?, Name.isContinue c = false := by
  intro c hc
  by_contra hcontinue
  have hblank := isBlank_of_isContinue (eq_true_of_ne_false hcontinue)
  rw [h c (List.mem_of_mem_head? hc)] at hblank
  cases hblank

/-- Without its last blanks, a text with blanks around its tokens spells them. -/
lemma padded_iff {ts : List Token} {cs : List Char} :
    Padded ts cs ↔ ∃ front gap, cs = front ++ gap ∧ (∀ c ∈ gap, isBlank c = true) ∧
      Spelled ts front := by
  constructor
  · intro h
    induction h with
    | @nil gap hblanks => exact ⟨[], gap, rfl, hblanks, .nil⟩
    | @cons gap rest t ts hblanks hwritable hends _ ih =>
        obtain ⟨front, back, rfl, hback, hspelled⟩ := ih
        refine ⟨gap ++ (t.text.toList ++ front), back, by simp [List.append_assoc], hback,
          .cons hblanks hwritable ?_ hspelled⟩
        cases front with
        | nil => exact endsBefore_of_forall fun c hc => (nomatch hc)
        | cons c front => cases t <;> exact hends
  · rintro ⟨front, gap, rfl, hgap, hspelled⟩
    induction hspelled with
    | nil => exact .nil hgap
    | cons hblanks hwritable hends _ ih =>
        rw [List.append_assoc, List.append_assoc]
        exact .cons hblanks hwritable (hends.append (isContinue_head?_of_blanks hgap)) ih

/-- A text splits into the tokens around which it has blanks. -/
lemma tokenize_eq_ok_iff {ts : List Token} {text : String} :
    tokenize text = .ok ts ↔ Padded ts text.toList := by
  rw [tokenize, scan_eq_ok_iff, padded_iff]
  constructor
  · intro h
    refine ⟨_, _, (trimEnd_append text.toList).symm, fun c hc => ?_, h⟩
    exact List.all_eq_true.mp List.all_takeWhile c (List.mem_reverse.mp hc)
  · rintro ⟨front, gap, htext, hgap, hspelled⟩
    have hdrop : trimEnd (front ++ gap) = trimEnd front := by
      rw [trimEnd, trimEnd, List.reverse_append,
        List.dropWhile_append_of_pos fun c hc => hgap c (List.mem_reverse.mp hc)]
    rwa [htext, hdrop, hspelled.trimEnd_eq]

/-! ### Tokens one behind the other -/

section Padded

variable {ts : List Token} {cs rest gap : List Char} {t : Token}

/-- The blanks in front of a token. -/
lemma takeWhile_blanks (h : ∀ c ∈ gap, isBlank c = true) (hwritable : t.IsWritable) :
    (gap ++ (t.text.toList ++ rest)).takeWhile isBlank = gap := by
  refine (takeWhile_append_eq h fun c hc => ?_).1
  rw [List.head?_append_of_ne_nil _ (text_ne_nil hwritable)] at hc
  exact isBlank_of_mem_text hwritable c (List.mem_of_mem_head? hc)

/-- Where no token stands, there are none at all. -/
lemma padded_iff_of_none (h : next? (cs.dropWhile isBlank) = none) :
    Padded ts cs ↔ ts = [] ∧ ∀ c ∈ cs, isBlank c = true := by
  constructor
  · intro hpadded
    cases hpadded with
    | nil hblanks => exact ⟨rfl, hblanks⟩
    | cons hblanks hwritable hends _ =>
        have hsome := next?_dropWhile_eq_some_iff.mpr ⟨_, rfl, hblanks, hwritable, hends⟩
        rw [h] at hsome
        cases hsome
  · rintro ⟨rfl, hblanks⟩
    exact .nil hblanks

/-- The first token, and the others behind it. -/
lemma padded_iff_of_some (h : next? (cs.dropWhile isBlank) = some (t, rest)) :
    Padded ts cs ↔ ∃ us, ts = t :: us ∧ Padded us rest := by
  constructor
  · intro hpadded
    cases hpadded with
    | nil hblanks =>
        rw [List.dropWhile_eq_nil_iff.mpr hblanks] at h
        cases h
    | cons hblanks hwritable hends hrest =>
        have hsome := next?_dropWhile_eq_some_iff.mpr ⟨_, rfl, hblanks, hwritable, hends⟩
        rw [h] at hsome
        cases hsome
        exact ⟨_, rfl, hrest⟩
  · rintro ⟨us, rfl, hus⟩
    obtain ⟨gap, rfl, hgap, hwritable, hends⟩ := next?_dropWhile_eq_some_iff.mp h
    exact .cons hgap hwritable hends hus

/-- One token in front of a text. -/
lemma padded_cons_iff (hgap : ∀ c ∈ gap, isBlank c = true) (hwritable : t.IsWritable)
    (hends : t.EndsBefore rest) :
    Padded ts (gap ++ (t.text.toList ++ rest)) ↔ ∃ us, ts = t :: us ∧ Padded us rest :=
  padded_iff_of_some (next?_dropWhile_eq_some_iff.mpr ⟨gap, rfl, hgap, hwritable, hends⟩)

/-- Blanks in front of a text. -/
lemma padded_blanks_iff (hgap : ∀ c ∈ gap, isBlank c = true) :
    Padded ts (gap ++ cs) ↔ Padded ts cs := by
  have hdrop : (gap ++ cs).dropWhile isBlank = cs.dropWhile isBlank :=
    List.dropWhile_append_of_pos hgap
  cases hnext : next? (cs.dropWhile isBlank) with
  | none =>
      rw [padded_iff_of_none (hdrop ▸ hnext), padded_iff_of_none hnext, List.forall_mem_append,
        and_iff_right hgap]
  | some read =>
      obtain ⟨t, rest⟩ := read
      rw [padded_iff_of_some (hdrop ▸ hnext), padded_iff_of_some hnext]

/-- The tokens of two texts one behind the other, where no identifier grows at the seam. -/
lemma padded_append_iff {os : List Token} {front : List Char} (hfront : Padded os front)
    (hseam : ∀ c ∈ rest.head?, Name.isContinue c = false) :
    Padded ts (front ++ rest) ↔ ∃ us, ts = os ++ us ∧ Padded us rest := by
  induction hfront generalizing ts with
  | nil hblanks =>
      rw [padded_blanks_iff hblanks]
      simp
  | cons hblanks hwritable hends _ ih =>
      rw [List.append_assoc, List.append_assoc,
        padded_cons_iff hblanks hwritable (hends.append hseam)]
      simp only [ih, List.cons_append]
      constructor
      · rintro ⟨_, rfl, us, rfl, hus⟩
        exact ⟨us, rfl, hus⟩
      · rintro ⟨us, rfl, hus⟩
        exact ⟨_, rfl, us, rfl, hus⟩

/-- The first of the tokens is the next one of the text. -/
lemma Padded.nextToken?_eq (h : Padded ts cs) : nextToken? cs = ts.head? := by
  cases h with
  | nil hblanks =>
      rw [nextToken?, List.dropWhile_eq_nil_iff.mpr hblanks]
      rfl
  | cons hblanks hwritable hends _ =>
      rw [nextToken?,
        next?_dropWhile_eq_some_iff.mpr ⟨_, rfl, hblanks, hwritable, hends⟩]
      rfl

end Padded

/-! ### The owner in the place of the placeholder -/

section Owner

variable {os : List Token} {owner : List Char}

/-- An identifier goes on behind the owner or another token only if it did before. -/
lemma isContinue_head?_spliceChars {joined : Bool} {cs : List Char}
    (h : ∀ c ∈ cs.head?, Name.isContinue c = false) :
    ∀ c ∈ (spliceChars owner joined cs).head?, Name.isContinue c = false := by
  fun_cases spliceChars owner joined cs with
  | case1 hnext => exact h
  | case2 t rest hnext =>
      obtain ⟨gap, rfl, hgap, hwritable, hends⟩ := next?_dropWhile_eq_some_iff.mp hnext
      rw [takeWhile_blanks hgap hwritable]
      cases gap with
      | cons c gap => exact fun d hd => isContinue_head?_of_blanks hgap d hd
      | nil =>
          -- the token is at the head, so it is a sign, and signs are written again
          have hsign : t.isSign = true := by
            cases t with
            | name text =>
                obtain ⟨c, r, hcs, hc, -⟩ := Name.isWord_iff.mp hwritable
                have hhead := h c (by simp [Token.text, hcs])
                rw [Name.isContinue_of_isStart hc] at hhead
                cases hhead
            | _ => rfl
          rw [isPlaceholder_of_isSign hsign]
          simpa [List.head?_append_of_ne_nil _ (text_ne_nil hwritable)] using h

/-- Nothing makes a token longer that is written again. -/
lemma EndsBefore.spliceChars {joined : Bool} {t : Token} {rest : List Char}
    (h : t.EndsBefore rest) : t.EndsBefore (spliceChars owner joined rest) := by
  cases t with
  | name text => exact isContinue_head?_spliceChars h
  | _ => trivial

/-- With the owner's characters in the place of the placeholders the characters are the tokens with
the owner's tokens in their place, and only such. -/
lemma padded_spliceChars_iff (howner : Padded os owner) {joined : Bool} {cs : List Char}
    {ts : List Token} :
    Padded ts (spliceChars owner joined cs) ↔ ∃ us, Padded us cs ∧ ts = splice os joined us := by
  fun_induction spliceChars owner joined cs generalizing ts with
  | case1 joined cs hnext =>
      simp only [padded_iff_of_none hnext]
      constructor
      · rintro ⟨rfl, hblanks⟩
        exact ⟨[], ⟨rfl, hblanks⟩, rfl⟩
      · rintro ⟨_, ⟨rfl, hblanks⟩, rfl⟩
        exact ⟨rfl, hblanks⟩
  | case2 joined cs t rest hnext _ ihplace ihother =>
      obtain ⟨-, -, -, hwritable, hends⟩ := next?_dropWhile_eq_some_iff.mp hnext
      have hgap : ∀ c ∈ cs.takeWhile isBlank, isBlank c = true :=
        List.all_eq_true.mp List.all_takeWhile
      simp only [padded_iff_of_some hnext]
      cases hplace : isPlaceholder joined t (nextToken? rest) with
      | true =>
          obtain ⟨rfl, -, -, -⟩ := isPlaceholder_iff.mp hplace
          rw [if_pos rfl, padded_blanks_iff hgap,
            padded_append_iff howner (isContinue_head?_spliceChars hends)]
          simp only [ihplace]
          constructor
          · rintro ⟨_, rfl, us, hus, rfl⟩
            rw [hus.nextToken?_eq] at hplace
            exact ⟨_, ⟨us, rfl, hus⟩, (splice_cons_of_isPlaceholder hplace).symm⟩
          · rintro ⟨_, ⟨us, rfl, hus⟩, rfl⟩
            rw [hus.nextToken?_eq] at hplace
            exact ⟨_, splice_cons_of_isPlaceholder hplace, us, hus, rfl⟩
      | false =>
          rw [if_neg Bool.false_ne_true, padded_cons_iff hgap hwritable hends.spliceChars]
          simp only [ihother]
          constructor
          · rintro ⟨_, rfl, us, hus, rfl⟩
            rw [hus.nextToken?_eq] at hplace
            exact ⟨_, ⟨us, rfl, hus⟩, (splice_cons hplace).symm⟩
          · rintro ⟨_, ⟨us, rfl, hus⟩, rfl⟩
            rw [hus.nextToken?_eq] at hplace
            exact ⟨_, splice_cons hplace, us, hus, rfl⟩

/-- The tokens of a text with the owner's text in the place of the placeholders are those of the
text with the owner's tokens in their place; the one text splits into tokens if the other does. -/
lemma tokenize_spliceText {owner text : String} (howner : tokenize owner = .ok os)
    {ts : List Token} : tokenize (spliceText owner text) = .ok ts ↔
      ∃ us, tokenize text = .ok us ∧ ts = splice os false us := by
  simp only [tokenize_eq_ok_iff] at howner ⊢
  rw [spliceText, String.toList_ofList]
  exact padded_spliceChars_iff howner

/-- No text becomes empty. -/
lemma spliceText_eq_empty_iff {owner text : String} (howner : owner ≠ "") :
    spliceText owner text = "" ↔ text = "" := by
  have hchars : owner.toList ≠ [] := by simpa using howner
  have hempty : text = "" ↔ text.toList = [] := String.toList_inj.symm
  rw [hempty, spliceText, ← String.toList_inj, String.toList_ofList]
  generalize text.toList = cs
  fun_cases spliceChars owner.toList false cs with
  | case1 hnext => rfl
  | case2 t rest hnext =>
      obtain ⟨gap, rfl, -, hwritable, -⟩ := next?_dropWhile_eq_some_iff.mp hnext
      have hword := text_ne_nil hwritable
      refine iff_of_false ?_ (by simp [hword])
      split <;> simp [hchars, hword]

end Owner

end Token

end AbiBridge
