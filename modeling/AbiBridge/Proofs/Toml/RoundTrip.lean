import AbiBridge.Proofs.Toml.Inline
import AbiBridge.Proofs.Toml.Numbers

/-!
Which values come back from their inline form.

Truth values, integers, finite numbers, texts and lists of those have an inline form unless an
integer in them has too many digits to be written. The form is read back as the value if and only if
every character of every text is one of the basic plane. A character beyond is written as a pair of
escapes, of which neither is a character for the reader; on the first of them it stops.

* `Value.leaves`: what lists are built of;
* `Inlinable`: the values that are considered here;
* `Stops`: a text that the reader refuses for an escape in it;
* `items_of_stops`: a list is refused if one of its items is;
* `inline_roundTrips`: which values have a form, which forms are read back, and what happens to the
  other ones.
-/

namespace AbiBridge

namespace Value

mutual

/-- The parts of a value that are no lists. -/
def leaves : Value → List Value
  | list items => leavesAll items
  | v => [v]

/-- The parts of the items of a list. -/
def leavesAll : List Value → List Value
  | [] => []
  | v :: vs => leaves v ++ leavesAll vs

end

lemma all_leavesAll {p : Value → Bool} {vs : List Value} :
    (leavesAll vs).all p = vs.all fun v => v.leaves.all p := by
  induction vs with
  | nil => rfl
  | cons v vs ih => rw [leavesAll, List.all_append, ih, List.all_cons]

end Value

namespace Toml

open Outcome Text

/-! ### The values -/

/-- Truth values, integers, finite numbers, texts, and lists of those. -/
inductive Inlinable : Value → Prop where
  | boolean (b : Bool) : Inlinable (.boolean b)
  | integer (n : Int) : Inlinable (.integer n)
  | number {m : ℕ} {e : ℤ} (canonical : Binary64.IsCanonical m e) (negative : Bool) :
      Inlinable (.number (.finite negative m e))
  | text (s : String) : Inlinable (.text s)
  | list {vs : List Value} (items : ∀ v ∈ vs, Inlinable v) : Inlinable (.list vs)

/-- Whether a part is no integer with too many digits to be written. -/
def isWritable : Value → Bool
  | .integer n => (toString n.natAbs).length ≤ digitLimit
  | _ => true

/-- Whether a part is no text with a character beyond the basic plane. -/
def isBasicPart : Value → Bool
  | .text s => s.toList.all isBasic
  | _ => true

/-! ### Writing -/

/-- The items of a list, taken together, have inline forms if each of them has. -/
lemma inlineAll_cases {vs : List Value} (h : ∀ v ∈ vs,
    (v.leaves.all isWritable = true → ∃ text, inline v = .ok text) ∧
      (v.leaves.all isWritable = false → inline v = .error (.integer .unwritable))) :
    ((vs.all fun v => v.leaves.all isWritable) = true → ∃ texts, inlineAll vs = .ok texts) ∧
      ((vs.all fun v => v.leaves.all isWritable) = false →
        inlineAll vs = .error (.integer .unwritable)) := by
  induction vs with
  | nil => exact ⟨fun _ => ⟨[], rfl⟩, fun hsome => absurd hsome Bool.false_ne_true.symm⟩
  | cons v vs ih =>
      obtain ⟨hv, hvs⟩ := List.forall_mem_cons.mp h
      obtain ⟨hfits, hlong⟩ := ih hvs
      rw [List.all_cons, inlineAll]
      cases hfirst : v.leaves.all isWritable
      · exact ⟨fun hall => absurd hall Bool.false_ne_true, fun _ => by rw [hv.2 hfirst]; rfl⟩
      · obtain ⟨text, htext⟩ := hv.1 hfirst
        rw [htext, Bool.true_and]
        constructor
        · intro hothers
          obtain ⟨texts, htexts⟩ := hfits hothers
          exact ⟨text :: texts, by rw [htexts]; rfl⟩
        · intro hothers
          rw [hlong hothers]
          rfl

/-- A value has an inline form unless an integer in it has too many digits. -/
lemma inline_cases {v : Value} (h : Inlinable v) :
    (v.leaves.all isWritable = true → ∃ text, inline v = .ok text) ∧
      (v.leaves.all isWritable = false → inline v = .error (.integer .unwritable)) := by
  induction h with
  | boolean b =>
      exact ⟨fun _ => ⟨_, by rw [inline]; rfl⟩, fun h => absurd h Bool.false_ne_true.symm⟩
  | number canonical negative =>
      exact ⟨fun _ => ⟨_, by rw [inline]; rfl⟩, fun h => absurd h Bool.false_ne_true.symm⟩
  | text s =>
      exact ⟨fun _ => ⟨_, by rw [inline]; rfl⟩, fun h => absurd h Bool.false_ne_true.symm⟩
  | integer n =>
      have hleaves : (Value.integer n).leaves.all isWritable =
          decide ((toString n.natAbs).length ≤ digitLimit) := Bool.and_true _
      rw [hleaves, decide_eq_true_iff, decide_eq_false_iff_not, inline, integerText]
      split
      · next hlong => exact ⟨fun hfits => absurd hlong (Nat.not_lt.mpr hfits), fun _ => rfl⟩
      · next hfits => exact ⟨fun _ => ⟨_, rfl⟩, fun hlong => absurd (Nat.not_lt.mp hfits) hlong⟩
  | @list vs _ ih =>
      obtain ⟨hfits, hlong⟩ := inlineAll_cases ih
      rw [Value.leaves, Value.all_leavesAll, inline]
      constructor
      · intro hall
        obtain ⟨texts, htexts⟩ := hfits hall
        exact ⟨_, by rw [htexts]; rfl⟩
      · intro hsome
        rw [hlong hsome]
        rfl

/-! ### Reading -/

/-- A text that the reader refuses for an escape in it. -/
structure Stops (text : String) : Prop where
  opens : ∃ c r, text.toList = c :: r ∧ opensValue c = true
  stops : ∀ depth rest, 2 * text.toList.length < depth →
    value depth (text.toList ++ rest) = .error .notCharacter

/-- What is refused is read back as no value. -/
lemma Stops.not_readsBack {text : String} (h : Stops text) (v : Value) : ¬ReadsBack v text := by
  intro hread
  have hvalue := hread.reads (2 * text.toList.length + 1) [] (Nat.lt_succ_self _) nofun
  rw [h.stops _ _ (Nat.lt_succ_self _)] at hvalue
  cases hvalue

/-- A text with a character beyond the basic plane is refused. -/
lemma stops_inlineText {s : String} (h : s.toList.all isBasic = false) : Stops (inlineText s) := by
  obtain ⟨c, hc, hbeyond⟩ := List.all_eq_false.mp h
  have hbody := basicText_flatMap_of_not_isBasic ⟨c, hc, Bool.eq_false_iff.mpr hbeyond⟩
  have htext : (inlineText s).toList =
      doubleQuote :: (s.toList.flatMap inlineChar ++ [doubleQuote]) := String.toList_ofList
  refine ⟨⟨_, _, htext, rfl⟩, fun depth rest hdepth => ?_⟩
  obtain ⟨depth, rfl⟩ : ∃ k, depth = k + 1 := ⟨depth - 1, by omega⟩
  have hshort (r : List Char) :
      afterQuotes? doubleQuote (doubleQuote :: (s.toList.flatMap inlineChar ++ r)) = none := by
    obtain ⟨first, others, hfirst⟩ := List.exists_cons_of_ne_nil (List.ne_nil_of_mem hc)
    obtain ⟨d, r', hd, hne⟩ := exists_inlineChar_cons first
    rw [hfirst, List.flatMap_cons, hd]
    exact afterQuotes?_cons hne _
  rw [htext, List.cons_append, List.append_assoc, value, if_pos (by decide), text, hshort]
  dsimp only
  rw [shortText, if_pos (by decide), hbody]
  rfl

/-- A first item that is refused. -/
lemma items_of_first_stops {text : String} (h : Stops text) {depth : ℕ}
    (hdepth : 2 * text.toList.length < depth) (rest : List Char) :
    items (depth + 1) (text.toList ++ rest) = .error .notCharacter := by
  have hstops := h.stops depth rest hdepth
  obtain ⟨c, r, htext, hopens⟩ := h.opens
  rw [htext, List.cons_append] at hstops ⊢
  rw [items, skipFiller_of_opensValue hopens]
  dsimp only [bind, Except.bind]
  split
  · next heq =>
    rw [(List.cons.inj heq).1] at hopens
    exact absurd hopens (by decide)
  · rw [hstops]

/-- The first item that is refused ends the reading of a list. -/
lemma items_of_stops {texts : List String} (h : ∀ text ∈ texts, ¬Stops text → ∃ v, ReadsBack v text)
    (hstops : ∃ text ∈ texts, Stops text) {depth : ℕ}
    (hdepth : 2 * (joined texts).length + 1 < depth) (rest : List Char) :
    items depth (joined texts ++ rest) = .error .notCharacter := by
  induction texts generalizing depth with
  | nil =>
      obtain ⟨text, htext, -⟩ := hstops
      exact absurd htext List.not_mem_nil
  | cons text texts ih =>
      obtain ⟨depth, rfl⟩ : ∃ k, depth = k + 2 := ⟨depth - 2, by omega⟩
      by_cases hfirst : Stops text
      · obtain ⟨tail, htail⟩ := exists_joined_cons text texts
        rw [htail, List.length_append] at hdepth
        rw [htail, List.append_assoc]
        exact items_of_first_stops hfirst (by omega) _
      · obtain ⟨hread, hothers⟩ := List.forall_mem_cons.mp h
        obtain ⟨v, hv⟩ := hread hfirst
        obtain ⟨other, hmem, hother⟩ := hstops
        rcases List.mem_cons.mp hmem with rfl | hmem
        · exact absurd hother hfirst
        obtain ⟨next, others, rfl⟩ := List.exists_cons_of_ne_nil (List.ne_nil_of_mem hmem)
        rw [joined_cons_cons, List.length_append, List.length_cons, List.length_cons] at hdepth
        rw [joined_cons_cons, List.append_assoc, List.cons_append, List.cons_append,
          (items_of_readsBack hv (by omega) _).2, items_space,
          ih hothers ⟨other, hmem, hother⟩ (by omega)]
        rfl

/-- A list is refused if one of its items is. -/
lemma stops_list {texts : List String} (h : ∀ text ∈ texts, ¬Stops text → ∃ v, ReadsBack v text)
    (hstops : ∃ text ∈ texts, Stops text) : Stops ("[" ++ ", ".intercalate texts ++ "]") := by
  have htext := toList_listText texts
  refine ⟨⟨_, _, htext, by decide⟩, fun depth rest hdepth => ?_⟩
  rw [htext, List.length_cons, List.length_append] at hdepth
  obtain ⟨depth, rfl⟩ : ∃ k, depth = k + 1 := ⟨depth - 1, by omega⟩
  rw [htext, List.cons_append, List.append_assoc, value, if_neg (by decide), if_pos (by decide),
    items_of_stops h hstops (by omega)]
  rfl

/-- The inline form of a value is read back as it if all its characters are basic, and is refused
otherwise. -/
lemma readsBack_or_stops {v : Value} (h : Inlinable v) {text : String}
    (htext : inline v = .ok text) :
    (v.leaves.all isBasicPart = true → ReadsBack v text) ∧
      (v.leaves.all isBasicPart = false → Stops text) := by
  induction h generalizing text with
  | boolean b =>
      rw [inline] at htext
      cases htext
      exact ⟨fun _ => readsBack_boolean b, fun h => absurd h Bool.false_ne_true.symm⟩
  | integer n =>
      rw [inline] at htext
      exact ⟨fun _ => readsBack_integer (mapError_eq_ok.mp htext),
        fun h => absurd h Bool.false_ne_true.symm⟩
  | number canonical negative =>
      rw [inline] at htext
      cases htext
      exact ⟨fun _ => readsBack_number canonical negative,
        fun h => absurd h Bool.false_ne_true.symm⟩
  | text s =>
      have hleaves : (Value.text s).leaves.all isBasicPart = s.toList.all isBasic := Bool.and_true _
      rw [inline] at htext
      cases htext
      rw [hleaves]
      exact ⟨readsBack_inlineText, stops_inlineText⟩
  | @list vs _ ih =>
      rw [inline] at htext
      obtain ⟨texts, htexts, htext⟩ := bind_eq_ok.mp htext
      cases htext
      have hitems := Listwise.imp_of_mem (forall₂_of_inlineAll htexts) fun v hv _ => ih v hv
      rw [Value.leaves, Value.all_leavesAll]
      constructor
      · intro hbasic
        exact readsBack_list (Listwise.imp_of_mem hitems fun v hv _ hread =>
          hread.1 (List.all_eq_true.mp hbasic v hv))
      · intro hbeyond
        obtain ⟨v, hv, hpart⟩ := List.all_eq_false.mp hbeyond
        refine stops_list (fun text htext hgoes => ?_) ?_
        · obtain ⟨w, -, hread, hstops⟩ := Listwise.exists_of_mem_right hitems htext
          exact ⟨w, hread (eq_true_of_ne_false fun hnot => hgoes (hstops hnot))⟩
        · obtain ⟨text, htext, -, hstops⟩ := Listwise.exists_of_mem_right hitems.flip hv
          exact ⟨text, htext, hstops (Bool.eq_false_iff.mpr hpart)⟩

/-- How the inline form of a value relates to it. -/
structure RoundTrips (v : Value) : Prop where
  written : v.leaves.all isWritable = true → ∃ text, inline v = .ok text
  unwritten : v.leaves.all isWritable = false → inline v = .error (.integer .unwritable)
  readBack : ∀ text, inline v = .ok text → v.leaves.all isBasicPart = true → ReadsBack v text
  /-- Another form is refused, whatever stands behind it. -/
  refused : ∀ text, inline v = .ok text → v.leaves.all isBasicPart = false →
    ∀ depth rest, 2 * text.toList.length < depth →
      value depth (text.toList ++ rest) = .error .notCharacter

/-- A value has an inline form unless an integer in it has too many digits. The form is read back as
the value if all characters are those of the basic plane, and is no value of the language if one is
not. -/
theorem inline_roundTrips {v : Value} (h : Inlinable v) : RoundTrips v where
  written := (inline_cases h).1
  unwritten := (inline_cases h).2
  readBack _ htext := (readsBack_or_stops h htext).1
  refused _ htext hbeyond := ((readsBack_or_stops h htext).2 hbeyond).stops

/-- A list of one value of each sort, with a text that needs escapes. -/
def sample : Value :=
  .list [.boolean true, .integer (-5), .number (.finite false 7205759403792794 (-56)),
    .text "é\n", .list []]

theorem inline_roundTrips_sample :
    inline sample = .ok "[true, -5, 0.1, \"\\u00e9\\n\", []]" ∧
      ReadsBack sample "[true, -5, 0.1, \"\\u00e9\\n\", []]" := by
  have hform : inline sample = .ok "[true, -5, 0.1, \"\\u00e9\\n\", []]" := by decide +kernel
  have hcanonical : Binary64.IsCanonical 7205759403792794 (-56) :=
    ⟨by norm_num, by decide, by decide, .inl (by norm_num)⟩
  refine ⟨hform, (inline_roundTrips (.list fun v hv => ?_)).readBack _ hform (by decide)⟩
  simp only [List.mem_cons, List.not_mem_nil, or_false] at hv
  rcases hv with rfl | rfl | rfl | rfl | rfl
  · exact .boolean true
  · exact .integer (-5)
  · exact .number hcanonical false
  · exact .text "é\n"
  · exact .list nofun

/-- A character beyond the basic plane does not come back. -/
theorem inline_beyondPlane : ¬∃ text, inline (.text "😀") = .ok text ∧
    ReadsBack (.text "😀") text := by
  rintro ⟨text, htext, hread⟩
  rw [inline] at htext
  cases htext
  exact (stops_inlineText (by decide)).not_readsBack _ hread

end Toml

end AbiBridge
