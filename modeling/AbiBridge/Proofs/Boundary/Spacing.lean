import AbiBridge.Failure
import AbiBridge.Proofs.Boundary.Splicing
import Mathlib.Data.List.Chain

/-!
Tokens with white space between them.

The same tokens can be written with any blanks before, between and behind them, as long as two
identifiers are kept apart. `Token.Typeset` is one way to write a list of tokens, and
`Token.IsTextOf` says that a text is the tokens in one of these ways.

* `Typeset.spelled`, `exists_typeset_of_spelled`: without the blanks at the end, these are the
  spellings, where a token is the longest one at its place;
* `mem_of_scan_eq_error`: the splitting is given up at a character of the text;
* `tokenize_exact`: a text splits into the tokens that it is a text of, all other texts are refused.
-/

namespace AbiBridge

open Outcome Text

namespace Token

/-! ### Ways to write tokens -/

/-- A token with the blanks in front of it. -/
structure Spaced where
  gap : List Char
  token : Token

/-- The characters of a token with those in front of it. -/
def Spaced.chars (s : Spaced) : List Char := s.gap ++ s.token.text.toList

/-- Tokens that can be written, in order, with blanks before and between them and behind the last
one. Between two identifiers there is a blank. -/
structure Typeset (items : List Spaced) (back : List Char) : Prop where
  writable : ∀ s ∈ items, s.token.IsWritable
  gaps : ∀ s ∈ items, ∀ c ∈ s.gap, isBlank c = true
  trailing : ∀ c ∈ back, isBlank c = true
  apart : items.IsChain fun s s' =>
    s.token.isSign = false → s'.token.isSign = false → s'.gap ≠ []

/-- The text is the tokens in order, written in one way or another. -/
def IsTextOf (ts : List Token) (text : String) : Prop :=
  ∃ items back, Typeset items back ∧ items.map Spaced.token = ts ∧
    text.toList = items.flatMap Spaced.chars ++ back

/-! ### Spellings -/

/-- A sign does not go on with an identifier. -/
lemma isContinue_of_isSign {t : Token} (h : t.isSign = true) :
    ∀ c ∈ t.text.toList.head?, Name.isContinue c = false := by
  cases t with
  | name text => cases h
  | _ =>
      rintro c ⟨⟩
      decide

/-- A name begins as an identifier does. -/
lemma exists_isContinue_of_isSign {t : Token} (hwritable : t.IsWritable) (h : t.isSign = false) :
    ∃ c ∈ t.text.toList.head?, Name.isContinue c = true := by
  cases t with
  | name text =>
      obtain ⟨c, r, hcs, hc, -⟩ := Name.isWord_iff.mp hwritable
      exact ⟨c, by rw [Token.text, hcs]; rfl, Name.isContinue_of_isStart hc⟩
  | _ => cases h

namespace Typeset

variable {s : Spaced} {items : List Spaced} {back : List Char}

lemma tail (h : Typeset (s :: items) back) : Typeset items back :=
  ⟨(List.forall_mem_cons.mp h.writable).2, (List.forall_mem_cons.mp h.gaps).2, h.trailing,
    h.apart.tail⟩

/-- What follows a token does not make it longer. -/
lemma endsBefore (h : Typeset (s :: items) back) :
    s.token.EndsBefore (items.flatMap Spaced.chars) := by
  cases hs : s.token with
  | name text =>
      cases items with
      | nil => exact fun c hc => (nomatch hc)
      | cons s' items =>
          intro c hc
          have happart := (List.isChain_cons_cons.mp h.apart).1 (by rw [hs]; rfl)
          have hgap := h.gaps s' (List.mem_cons_of_mem _ List.mem_cons_self)
          have hwritable := h.writable s' (List.mem_cons_of_mem _ List.mem_cons_self)
          rw [List.flatMap_cons, Spaced.chars, List.append_assoc] at hc
          cases hfront : s'.gap with
          | nil =>
              -- no blank stands between them, so the second one is no identifier
              have hsign : s'.token.isSign = true :=
                eq_true_of_ne_false fun hname => happart hname hfront
              rw [hfront, List.nil_append,
                List.head?_append_of_ne_nil _ (text_ne_nil hwritable)] at hc
              exact isContinue_of_isSign hsign c hc
          | cons d gap =>
              rw [hfront, List.cons_append, List.head?_cons, Option.mem_some] at hc
              exact isContinue_head?_of_blanks hgap c (by rw [hfront, hc]; rfl)
  | _ => trivial

/-- Up to the last token, this is a spelling. -/
lemma spelled (h : Typeset items back) :
    Spelled (items.map Spaced.token) (items.flatMap Spaced.chars) := by
  induction items with
  | nil => exact .nil
  | cons s items ih =>
      rw [List.map_cons, List.flatMap_cons, Spaced.chars, List.append_assoc]
      exact .cons (h.gaps s List.mem_cons_self) (h.writable s List.mem_cons_self) h.endsBefore
        (ih h.tail)

end Typeset

/-- Every spelling arises in this way, with no blanks at the end. -/
lemma exists_typeset_of_spelled {ts : List Token} {cs : List Char} (h : Spelled ts cs) :
    ∃ items, Typeset items [] ∧ items.map Spaced.token = ts ∧
      items.flatMap Spaced.chars = cs := by
  induction h with
  | nil =>
      exact ⟨[], ⟨fun _ hs => absurd hs List.not_mem_nil, fun _ hs => absurd hs List.not_mem_nil,
        fun _ hc => absurd hc List.not_mem_nil, .nil⟩, rfl, rfl⟩
  | @cons gap rest t ts hgap hwritable hends _ ih =>
      obtain ⟨items, hitems, rfl, rfl⟩ := ih
      refine ⟨⟨gap, t⟩ :: items, ⟨List.forall_mem_cons.mpr ⟨hwritable, hitems.writable⟩,
        List.forall_mem_cons.mpr ⟨hgap, hitems.gaps⟩, hitems.trailing, ?_⟩, rfl, ?_⟩
      · cases items with
        | nil => exact List.isChain_singleton _
        | cons s items =>
            refine List.isChain_cons_cons.mpr ⟨fun ht hs hnone => ?_, hitems.apart⟩
            have hnext := hitems.writable s List.mem_cons_self
            obtain ⟨c, hc, hcontinue⟩ := exists_isContinue_of_isSign hnext hs
            -- without a blank between them the second identifier goes on with the first one
            have hhead : c ∈ ((s :: items).flatMap Spaced.chars).head? := by
              rw [List.flatMap_cons, Spaced.chars, hnone, List.nil_append,
                List.head?_append_of_ne_nil _ (text_ne_nil hnext)]
              exact hc
            cases t with
            | name text => exact absurd (hends c hhead) (by rw [hcontinue]; decide)
            | _ => cases ht
      · rw [List.flatMap_cons, Spaced.chars, List.append_assoc]

/-- A text splits into the tokens that it is a text of. -/
lemma tokenize_iff_isTextOf {ts : List Token} {text : String} :
    tokenize text = .ok ts ↔ IsTextOf ts text := by
  rw [tokenize_eq_ok_iff, padded_iff]
  constructor
  · rintro ⟨front, back, htext, hback, hspelled⟩
    obtain ⟨items, hitems, hts, hfront⟩ := exists_typeset_of_spelled hspelled
    exact ⟨items, back, ⟨hitems.writable, hitems.gaps, hback, hitems.apart⟩, hts,
      by rw [htext, hfront]⟩
  · rintro ⟨items, back, hitems, rfl, htext⟩
    exact ⟨_, back, htext, hitems.trailing, hitems.spelled⟩

/-! ### What the text keeps -/

/-- Without its white space, a text is its tokens one behind the other. -/
lemma IsTextOf.flatMap_text {ts : List Token} {text : String} (h : IsTextOf ts text) :
    ts.flatMap (fun t => t.text.toList) = text.toList.filter (!isBlank ·) := by
  obtain ⟨items, back, hitems, rfl, htext⟩ := h
  have hnone : ∀ {cs : List Char}, (∀ c ∈ cs, isBlank c = true) →
      cs.filter (!isBlank ·) = [] := fun hcs =>
    List.filter_eq_nil_iff.mpr fun c hc => by simp [hcs c hc]
  have hall : ∀ {t : Token}, t.IsWritable →
      t.text.toList.filter (!isBlank ·) = t.text.toList := fun ht =>
    List.filter_eq_self.mpr fun c hc => by simp [isBlank_of_mem_text ht c hc]
  rw [htext, List.filter_append, hnone hitems.trailing, List.append_nil]
  clear htext
  induction items with
  | nil => rfl
  | cons s items ih =>
      rw [List.map_cons, List.flatMap_cons, List.flatMap_cons, Spaced.chars, List.filter_append,
        List.filter_append, hnone (hitems.gaps s List.mem_cons_self),
        hall (hitems.writable s List.mem_cons_self), List.nil_append, ih hitems.tail]

/-- A token takes at least one character. -/
lemma IsTextOf.length_le {ts : List Token} {text : String} (h : IsTextOf ts text) :
    ts.length ≤ text.length := by
  obtain ⟨items, back, hitems, rfl, htext⟩ := h
  rw [← String.length_toList, htext, List.length_append, List.length_map]
  refine Nat.le_trans ?_ (Nat.le_add_right _ _)
  clear htext
  induction items with
  | nil => exact Nat.le_refl 0
  | cons s items ih =>
      have hpos := List.length_pos_iff.mpr (text_ne_nil (hitems.writable s List.mem_cons_self))
      have hrest := ih hitems.tail
      rw [List.flatMap_cons, List.length_append, Spaced.chars, List.length_append,
        List.length_cons]
      omega

/-! ### Refused texts -/

/-- The splitting is given up at a character of the text. -/
lemma mem_of_scan_eq_error {cs : List Char} {c : Char} (h : scan cs = .error c) : c ∈ cs := by
  fun_induction scan cs with
  | case1 => cases h
  | case2 d r _ =>
      cases h
      exact List.mem_cons_self
  | case3 d r t rest hnext _ ih =>
      obtain ⟨gap, hcs, -⟩ := next?_dropWhile_eq_some_iff.mp hnext
      have hrest : c ∈ rest := by
        cases hscan : scan rest with
        | error d =>
            rw [hscan] at h
            cases h
            exact ih hscan
        | ok ts =>
            rw [hscan] at h
            cases h
      rw [hcs]
      exact List.mem_append_right _ (List.mem_append_right _ hrest)

lemma mem_of_tokenize_eq_error {text : String} {c : Char} (h : tokenize text = .error c) :
    c ∈ text.toList := by
  rw [← trimEnd_append text.toList]
  exact List.mem_append_left _ (mem_of_scan_eq_error h)

/-- What the splitting of a text does. -/
structure TokenizesExactly (text : String) : Prop where
  /-- It succeeds on the texts of tokens, in whatever spacing, and gives the tokens. -/
  exact : ∀ ts, tokenize text = .ok ts ↔ IsTextOf ts text
  unique : ∀ ts ts', IsTextOf ts text → IsTextOf ts' text → ts = ts'
  /-- One behind the other, the tokens are the text without its white space. -/
  joined : ∀ ts, tokenize text = .ok ts →
    ts.flatMap (fun t => t.text.toList) = text.toList.filter (!isBlank ·)
  /-- Another spacing makes no difference. -/
  respaced : ∀ ts other, tokenize text = .ok ts → IsTextOf ts other → tokenize other = .ok ts
  /-- It takes no more rounds than the text has characters. -/
  bounded : ∀ ts, tokenize text = .ok ts → ts.length ≤ text.length
  /-- All other texts are refused, with one of their characters, and so is the type that they should
  be the text of. -/
  refused : (∀ ts, ¬IsTextOf ts text) → ∃ c ∈ text.toList, tokenize text = .error c ∧
    ∀ enums, BoundaryType.parse enums text = .error ⟨text, .unexpectedCharacter c⟩ ∧
      (Failure.typeText ⟨text, .unexpectedCharacter c⟩).kind = .malformed

/-- **Exact tokens.** Every text is split into the tokens that it is a text of, in whatever spacing,
and is refused if there are none. -/
theorem tokenize_exact (text : String) : TokenizesExactly text where
  exact := fun _ => tokenize_iff_isTextOf
  unique := fun ts ts' h h' =>
    Except.ok.inj ((tokenize_iff_isTextOf.mpr h).symm.trans (tokenize_iff_isTextOf.mpr h'))
  joined := fun _ h => (tokenize_iff_isTextOf.mp h).flatMap_text
  respaced := fun _ _ _ h => tokenize_iff_isTextOf.mpr h
  bounded := fun _ h => (tokenize_iff_isTextOf.mp h).length_le
  refused := by
    intro hnone
    cases htokens : tokenize text with
    | ok ts => exact absurd (tokenize_iff_isTextOf.mp htokens) (hnone ts)
    | error c =>
        refine ⟨c, mem_of_tokenize_eq_error htokens, rfl, fun enums => ⟨?_, rfl⟩⟩
        rw [BoundaryType.parse, htokens]
        rfl

example : tokenize " a::b <c\t, mut d > " = tokenize "a :: b<c,mut d>" := by decide +kernel

end Token

end AbiBridge
