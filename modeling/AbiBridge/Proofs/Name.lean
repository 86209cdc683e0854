import AbiBridge.Name
import AbiBridge.Proofs.Outcome

/-!
Names and paths that may be spliced.

`Name.IsName` and `Name.IsPath` say which texts are accepted, without the order in which the checks
look at them. Main statements: `check_eq_ok_iff` and `checkPath_eq_ok_iff`, the checks accept
exactly these. `Name.occursIn` looks for a name in a text.
-/

namespace AbiBridge

open Outcome

namespace Name

/-- A text that may be spliced as a name. -/
structure IsName (s : String) : Prop where
  identifier : isIdentifier s = true
  notKeyword : s ∉ keywords

/-- A text that may be spliced as a path: its last segment is a name, and each one before it a name
or a qualifier. -/
def IsPath (path : String) : Prop :=
  ∃ front last, segments path = front ++ [last] ∧ IsName last ∧
    ∀ s ∈ front, IsName s ∨ s ∈ pathQualifiers

/-- The last segment of a path. -/
lemma baseName_eq {path last : String} {front : List String}
    (h : segments path = front ++ [last]) : baseName path = last := by
  rw [baseName, h, List.getLastD_concat]

lemma IsPath.isName_baseName {path : String} (h : IsPath path) : IsName (baseName path) := by
  obtain ⟨front, last, hsegments, hlast, -⟩ := h
  rwa [baseName_eq hsegments]

/-! ### Words -/

lemma isContinue_of_isStart {c : Char} (h : isStart c = true) : isContinue c = true := by
  simp only [isStart, isContinue, Char.isAlphanum, Bool.or_eq_true] at h ⊢
  exact h.imp_left Or.inl

/-- The characters that go on an identifier. -/
lemma toNat_of_isContinue {c : Char} (h : isContinue c = true) :
    c = '_' ∨ (48 ≤ c.toNat ∧ c.toNat ≤ 57) ∨ (65 ≤ c.toNat ∧ c.toNat ≤ 90) ∨
      (97 ≤ c.toNat ∧ c.toNat ≤ 122) := by
  have hdigit (h : c.isDigit = true) : 48 ≤ c.toNat ∧ c.toNat ≤ 57 :=
    Char.isDigit_iff_toNat.mp h
  have hupper (h : c.isUpper = true) : 65 ≤ c.toNat ∧ c.toNat ≤ 90 := of_decide_eq_true h
  have hlower (h : c.isLower = true) : 97 ≤ c.toNat ∧ c.toNat ≤ 122 :=
    (Bool.and_eq_true_iff.mp h).imp of_decide_eq_true of_decide_eq_true
  rcases Bool.or_eq_true_iff.mp h with h | h
  · rcases Bool.or_eq_true_iff.mp h with h | h
    · exact Or.inr (Or.inr ((Bool.or_eq_true_iff.mp h).imp hupper hlower))
    · exact Or.inr (Or.inl (hdigit h))
  · exact Or.inl (beq_iff_eq.mp h)

/-- A word is a first character and others that go on with it. -/
lemma isWord_iff {cs : List Char} : isWord cs = true ↔
    ∃ c r, cs = c :: r ∧ isStart c = true ∧ ∀ d ∈ r, isContinue d = true := by
  cases cs with
  | nil => simp [isWord]
  | cons c r => simp [isWord]

/-- All the characters of a word go on an identifier. -/
lemma isContinue_of_isWord {cs : List Char} (h : isWord cs = true) :
    ∀ c ∈ cs, isContinue c = true := by
  obtain ⟨c, r, rfl, hc, hr⟩ := isWord_iff.mp h
  exact List.forall_mem_cons.mpr ⟨isContinue_of_isStart hc, hr⟩

lemma ne_colon_of_isWord {cs : List Char} (h : isWord cs = true) : ∀ c ∈ cs, c ≠ ':' := by
  rintro c hc rfl
  exact absurd (isContinue_of_isWord h ':' hc) (by decide)

/-- A character that is no colon goes to the first piece. -/
lemma split_cons {c : Char} {cs piece : List Char} {pieces : List (List Char)} (hc : c ≠ ':')
    (h : split cs = piece :: pieces) : split (c :: cs) = (c :: piece) :: pieces := by
  rw [split.eq_3 c cs fun _ hcolon _ => hc hcolon, h]

/-- A text without colons is its own only piece, and the first one if a double colon stands behind
it. -/
lemma split_eq_of_forall_ne {word : List Char} (h : ∀ c ∈ word, c ≠ ':') :
    split word = [word] ∧ ∀ rest, split (word ++ ':' :: ':' :: rest) = word :: split rest := by
  induction word with
  | nil => exact ⟨rfl, fun _ => rfl⟩
  | cons c word ih =>
      obtain ⟨hc, hword⟩ := List.forall_mem_cons.mp h
      obtain ⟨hlast, hfront⟩ := ih hword
      exact ⟨split_cons hc hlast, fun rest => split_cons hc (hfront rest)⟩

/-- The segments of a path of words are the words. -/
lemma segments_intercalate {first : String} {others : List String}
    (h : ∀ s ∈ first :: others, isWord s.toList = true) :
    segments ("::".intercalate (first :: others)) = first :: others := by
  induction others generalizing first with
  | nil =>
      have hsplit := (split_eq_of_forall_ne (ne_colon_of_isWord (h first List.mem_cons_self))).1
      rw [String.intercalate_singleton, segments, hsplit, List.map_singleton,
        String.ofList_toList]
  | cons s others ih =>
      obtain ⟨hfirst, hothers⟩ := List.forall_mem_cons.mp h
      have hsplit := (split_eq_of_forall_ne (ne_colon_of_isWord hfirst)).2
      have htext : ("::".intercalate (first :: s :: others)).toList =
          first.toList ++ ':' :: ':' :: ("::".intercalate (s :: others)).toList := by
        rw [String.intercalate_cons_cons, String.toList_append, String.toList_append,
          List.append_assoc]
        rfl
      rw [segments, htext, hsplit, List.map_cons, String.ofList_toList]
      exact congrArg _ (ih hothers)

/-- A character of a name goes on an identifier, or is the line feed that may stand behind it. -/
lemma IsName.isContinue_or_eq {s : String} (h : IsName s) {c : Char} (hc : c ∈ s.toList) :
    isContinue c = true ∨ c = '\n' := by
  have hid := h.identifier
  rw [isIdentifier, dropNewline] at hid
  split at hid
  · next hlast =>
    have hsplit := List.dropLast_append_getLast? _ hlast
    rw [← hsplit, List.mem_append, List.mem_singleton] at hc
    exact hc.imp_left (isContinue_of_isWord hid c)
  · exact Or.inl (isContinue_of_isWord hid c hc)

/-! ### The checks -/

/-- The checks of names do not depend on what the name is for. -/
lemma check_eq_ok_iff {role : NameRole} {s : String} : check role s = .ok () ↔ IsName s := by
  rw [check, ite_throw_eq_ok, ite_throw_eq_ok, Bool.not_eq_true, Bool.not_eq_false',
    List.contains_iff_mem]
  exact ⟨fun h => ⟨h.1, h.2.1⟩, fun h => ⟨h.identifier, h.notKeyword, rfl⟩⟩

/-- A segment in front of others. -/
lemma checkSegments_cons_eq_ok_iff {role : NameRole} {s t : String} {rest : List String} :
    checkSegments role (s :: t :: rest) = .ok () ↔
      (IsName s ∨ s ∈ pathQualifiers) ∧ checkSegments role (t :: rest) = .ok () := by
  rw [checkSegments.eq_3 role s (t :: rest) (List.cons_ne_nil t rest)]
  by_cases hs : s ∈ pathQualifiers
  · have hc : (!pathQualifiers.contains s) = false := by simpa using hs
    rw [hc, if_neg Bool.false_ne_true]
    exact ⟨fun h => ⟨Or.inr hs, h⟩, fun h => h.2⟩
  · have hc : (!pathQualifiers.contains s) = true := by simpa using hs
    rw [hc, if_pos rfl, bind_unit_eq_ok, check_eq_ok_iff, or_iff_left hs]

lemma checkSegments_eq_ok_iff {role : NameRole} {l : List String} (hl : l ≠ []) :
    checkSegments role l = .ok () ↔
      ∃ front last, l = front ++ [last] ∧ IsName last ∧
        ∀ s ∈ front, IsName s ∨ s ∈ pathQualifiers := by
  induction l with
  | nil => exact absurd rfl hl
  | cons s rest ih =>
      cases rest with
      | nil =>
          rw [checkSegments, check_eq_ok_iff]
          constructor
          · exact fun h => ⟨[], s, rfl, h, fun t ht => absurd ht List.not_mem_nil⟩
          · rintro ⟨front, last, heq, hlast, -⟩
            cases front with
            | nil => cases heq; exact hlast
            | cons u us => simp at heq
      | cons t rest =>
          rw [checkSegments_cons_eq_ok_iff, ih (List.cons_ne_nil t rest)]
          constructor
          · rintro ⟨hs, front, last, heq, hlast, hfront⟩
            exact ⟨s :: front, last, by rw [heq]; rfl, hlast,
              List.forall_mem_cons.mpr ⟨hs, hfront⟩⟩
          · rintro ⟨front, last, heq, hlast, hfront⟩
            cases front with
            | nil => simp at heq
            | cons u us =>
                rw [List.cons_append, List.cons.injEq] at heq
                obtain ⟨rfl, heq⟩ := heq
                obtain ⟨hs, hus⟩ := List.forall_mem_cons.mp hfront
                exact ⟨hs, us, last, heq, hlast, hus⟩

lemma segments_ne_nil (path : String) : segments path ≠ [] := by
  rw [segments, Ne, List.map_eq_nil_iff]
  exact split_ne_nil _

lemma checkPath_eq_ok_iff {role : NameRole} {path : String} :
    checkPath role path = .ok () ↔ IsPath path :=
  checkSegments_eq_ok_iff (segments_ne_nil path)

/-! ### Names in a text -/

/-- Whether a character may stand in a name. The line feed is one of them: at the end of a name it
makes another name. -/
def standsInName (c : Char) : Bool := isContinue c || c == '\n'

/-- What is between the characters that stand in no name. -/
def stretches (cs : List Char) : List (List Char) := cs.splitOnP (!standsInName ·)

/-- Whether a name stands in a text as a name of its own. -/
def occursIn (name text : String) : Bool := (stretches text.toList).contains name.toList

lemma occursIn_eq_false_iff {name text : String} :
    occursIn name text = false ↔ name.toList ∉ stretches text.toList := by
  rw [occursIn, Bool.eq_false_iff, Ne, List.contains_iff_mem]

/-- On the two sides of a character that stands in no name. -/
lemma mem_stretches_append_cons {n front back : List Char} {c : Char}
    (hc : standsInName c = false) :
    n ∈ stretches (front ++ c :: back) ↔ n ∈ stretches front ∨ n ∈ stretches back := by
  rw [stretches, List.splitOnP_append_cons front back (by rw [hc]; rfl), List.mem_append]
  rfl

example :
    occursIn "value" "Box::into_raw(value)" = true ∧ occursIn "value" "my_values" = false := by
  decide

/-- A name is one stretch. -/
lemma IsName.stretches_eq {s : String} (h : IsName s) : stretches s.toList = [s.toList] := by
  refine List.splitOnP_eq_singleton fun c hc => ?_
  rw [standsInName, Bool.not_eq_false', Bool.or_eq_true, beq_iff_eq]
  exact h.isContinue_or_eq hc

end Name

end AbiBridge
