import AbiBridge.Files.Path
import Mathlib.Data.List.Basic
import Mathlib.Tactic.Lemma

/-!
Paths and their texts.

The text of a path is read as the path if each of its parts can stand between two slashes. The parts
of a path that was read from a text always can, so its text may take the place of the first one.

* `Path.splitSlashes_intercalate`: what stands between slashes is found again;
* `Path.ofString_text`: a path is read back from its text;
* `Path.ofString_of_isPart`: a text that is one part is a path of that part.
-/

namespace AbiBridge.Path

/-- A part that is neither empty, nor the sign for the directory itself, nor divided by a slash. -/
structure IsPart (part : String) : Prop where
  nonempty : part ≠ ""
  ne_dot : part ≠ "."
  undivided : '/' ∉ part.toList

/-! ### Splitting at slashes -/

lemma splitSlashes_ne_nil (cs : List Char) : splitSlashes cs ≠ [] := by
  fun_cases splitSlashes cs <;> simp_all

/-- Characters without a slash are their own only piece, and the first one if a slash stands behind
them. -/
lemma splitSlashes_eq_of_notMem {piece : List Char} (h : '/' ∉ piece) :
    splitSlashes piece = [piece] ∧
      ∀ rest, splitSlashes (piece ++ '/' :: rest) = piece :: splitSlashes rest := by
  induction piece with
  | nil => exact ⟨rfl, fun rest => by rw [List.nil_append, splitSlashes, if_pos rfl]⟩
  | cons c piece ih =>
      rw [List.mem_cons, not_or] at h
      obtain ⟨hlast, hfront⟩ := ih h.2
      have hc : c ≠ '/' := Ne.symm h.1
      refine ⟨by rw [splitSlashes, if_neg hc, hlast], fun rest => ?_⟩
      rw [List.cons_append, splitSlashes, if_neg hc, hfront]

/-- There is no slash in a piece. -/
lemma notMem_of_mem_splitSlashes {cs piece : List Char} (h : piece ∈ splitSlashes cs) :
    '/' ∉ piece := by
  induction cs generalizing piece with
  | nil =>
      rw [splitSlashes, List.mem_singleton] at h
      rw [h]
      exact List.not_mem_nil
  | cons c cs ih =>
      rw [splitSlashes] at h
      by_cases hc : c = '/'
      · rw [if_pos hc, List.mem_cons] at h
        rcases h with rfl | h
        · exact List.not_mem_nil
        · exact ih h
      · rw [if_neg hc] at h
        obtain ⟨first, others, hpieces⟩ := List.exists_cons_of_ne_nil (splitSlashes_ne_nil cs)
        rw [hpieces] at h ih
        rcases List.mem_cons.mp h with rfl | h
        · rw [List.mem_cons, not_or]
          exact ⟨Ne.symm hc, ih List.mem_cons_self⟩
        · exact ih (List.mem_cons_of_mem _ h)

/-- Texts without slashes are the pieces of what they are joined to by slashes. -/
lemma splitSlashes_intercalate {first : String} {others : List String}
    (h : ∀ part ∈ first :: others, '/' ∉ part.toList) :
    splitSlashes ("/".intercalate (first :: others)).toList =
      (first :: others).map String.toList := by
  induction others generalizing first with
  | nil =>
      rw [String.intercalate_singleton, List.map_singleton]
      exact (splitSlashes_eq_of_notMem (h first List.mem_cons_self)).1
  | cons part others ih =>
      obtain ⟨hfirst, hothers⟩ := List.forall_mem_cons.mp h
      have htext : ("/".intercalate (first :: part :: others)).toList =
          first.toList ++ '/' :: ("/".intercalate (part :: others)).toList := by
        rw [String.intercalate_cons_cons, String.toList_append, String.toList_append,
          List.append_assoc]
        rfl
      rw [htext, (splitSlashes_eq_of_notMem hfirst).2, ih hothers]
      rfl

/-! ### Reading a text -/

/-- The slashes in front of other characters only say where the path begins. -/
lemma ofString_of_toList_eq {s : String} {anchor : Anchor} {cs : List Char}
    (hs : s.toList = anchor.text.toList ++ cs) (hcs : cs.head? ≠ some '/') :
    ofString s =
      ⟨anchor, ((splitSlashes cs).map String.ofList).filter fun p => p != "" && p != "."⟩ := by
  have hnone : cs.takeWhile (· = '/') = [] := by
    cases cs with
    | nil => rfl
    | cons c r =>
        have hc : c ≠ '/' := fun heq => hcs (congrArg some heq)
        exact List.takeWhile_cons_of_neg (by simpa using hc)
  rw [ofString, hs]
  cases anchor with
  | relative =>
      have htext : Anchor.relative.text.toList = [] := rfl
      simp only [htext, List.nil_append, hnone]
      rfl
  | root =>
      have htext : Anchor.root.text.toList = ['/'] := rfl
      simp [htext, hnone, splitSlashes, Anchor.ofSlashes]
  | doubleRoot =>
      have htext : Anchor.doubleRoot.text.toList = ['/', '/'] := rfl
      simp [htext, hnone, splitSlashes, Anchor.ofSlashes]

/-- Every part of a path that was read is one. -/
lemma isPart_of_mem_ofString {s part : String} (h : part ∈ (ofString s).parts) : IsPart part := by
  obtain ⟨hpiece, hkept⟩ := List.mem_filter.mp h
  obtain ⟨piece, hmem, rfl⟩ := List.mem_map.mp hpiece
  rw [Bool.and_eq_true, bne_iff_ne, bne_iff_ne] at hkept
  refine ⟨hkept.1, hkept.2, ?_⟩
  rw [String.toList_ofList]
  exact notMem_of_mem_splitSlashes hmem

/-- The first of several texts with slashes between them comes first. -/
lemma head?_intercalate {first : String} (others : List String) (h : first ≠ "") :
    ("/".intercalate (first :: others)).toList.head? = first.toList.head? := by
  have hfirst : first.toList ≠ [] := fun hnil => h (String.toList_eq_nil_iff.mp hnil)
  cases others with
  | nil => rw [String.intercalate_singleton]
  | cons part others =>
      rw [String.intercalate_cons_cons, String.toList_append, String.toList_append,
        List.append_assoc, List.head?_append_of_ne_nil _ hfirst]

/-- A path is read back from its text. -/
theorem ofString_text {p : Path} (h : ∀ part ∈ p.parts, IsPart part) : ofString p.text = p := by
  obtain ⟨anchor, parts⟩ := p
  cases parts with
  | nil => cases anchor <;> decide
  | cons first others =>
      have hfirst := h first List.mem_cons_self
      have hundivided : ∀ part ∈ first :: others, '/' ∉ part.toList :=
        fun part hpart => (h part hpart).undivided
      have hkept : ∀ part ∈ first :: others, (part != "" && part != ".") = true := by
        intro part hpart
        rw [Bool.and_eq_true, bne_iff_ne, bne_iff_ne]
        exact ⟨(h part hpart).nonempty, (h part hpart).ne_dot⟩
      have htext : text ⟨anchor, first :: others⟩ =
          anchor.text ++ "/".intercalate (first :: others) :=
        if_neg fun hnone => List.cons_ne_nil _ _ hnone.2
      have hhead : ("/".intercalate (first :: others)).toList.head? ≠ some '/' := by
        rw [head?_intercalate others hfirst.nonempty]
        exact fun hslash => hfirst.undivided (List.mem_of_head? hslash)
      rw [ofString_of_toList_eq (by rw [htext, String.toList_append]) hhead,
        splitSlashes_intercalate hundivided, List.map_map]
      have hsame : String.ofList ∘ String.toList = id := funext fun part => String.ofList_toList
      rw [hsame, List.map_id, List.filter_eq_self.mpr hkept]

/-- A text that can stand between two slashes is a path of one part. -/
lemma ofString_of_isPart {s : String} (h : IsPart s) : ofString s = ⟨.relative, [s]⟩ := by
  have htext : text ⟨.relative, [s]⟩ = s := by
    rw [text, if_neg fun hnone => List.cons_ne_nil _ _ hnone.2, String.intercalate_singleton]
    exact String.empty_append
  rw [← ofString_text (p := ⟨.relative, [s]⟩) (List.forall_mem_singleton.mpr h), htext]

end AbiBridge.Path
