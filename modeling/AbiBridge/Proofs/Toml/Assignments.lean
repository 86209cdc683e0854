import AbiBridge.Proofs.Toml.Inline

/-!
Assignments are read back.

A key is one name if it is made of letters, digits, hyphens and underscores: then it needs no
quotes, and no dot makes a longer key of it. An assignment writes a name, an equals sign and the
text of a value with single blanks between them; in braces, with commas between them, assignments
to distinct names make a table on one line.

* `IsBareName`: a name that may be written without quotes;
* `Assigns`: a line that assigns a value to such a name;
* `entries_joined`: the entries of a table on one line are read up to its brace;
* `readsBack_table`: a table on one line is read back.
-/

namespace AbiBridge.Toml

open Outcome Text

/-! ### Keys -/

/-- A name that may be written without quotes. -/
structure IsBareName (name : String) : Prop where
  nonempty : name ≠ ""
  bare : ∀ c ∈ name.toList, isBare c = true

instance (name : String) : Decidable (IsBareName name) :=
  decidable_of_iff (name ≠ "" ∧ name.toList.all isBare = true)
    ⟨fun h => ⟨h.1, List.all_eq_true.mp h.2⟩, fun h => ⟨h.nonempty, List.all_eq_true.mpr h.bare⟩⟩

lemma IsBareName.exists_cons {name : String} (h : IsBareName name) :
    ∃ c r, name.toList = c :: r ∧ isBare c = true := by
  obtain ⟨c, r, hcons⟩ := List.exists_cons_of_ne_nil (mt String.toList_eq_nil_iff.mp h.nonempty)
  exact ⟨c, r, hcons, h.bare c (by rw [hcons]; exact List.mem_cons_self)⟩

/-- What a name is made of is neither a blank nor anything else that begins a line. -/
lemma ne_of_isBare {c : Char} (h : isBare c = true) {d : Char} (hd : isBare d = false) : c ≠ d := by
  rintro rfl
  rw [h] at hd
  cases hd

lemma isSpace_of_isBare {c : Char} (h : isBare c = true) : isSpace c = false := by
  rw [isSpace, Bool.or_eq_false_iff, beq_eq_false_iff_ne, beq_eq_false_iff_ne]
  exact ⟨ne_of_isBare h (by decide), ne_of_isBare h (by decide)⟩

lemma IsBareName.unreturned {name : String} (h : IsBareName name) : '\r' ∉ name.toList :=
  fun hmem => absurd (h.bare _ hmem) (by decide)

lemma dropWhile_blank {c : Char} (hc : isSpace c = false) (r : List Char) :
    (' ' :: c :: r).dropWhile isSpace = c :: r := by
  rw [List.dropWhile_cons_of_pos (by decide), List.dropWhile_cons_of_neg (by simp [hc])]

/-- A bare name is a key of its own where neither a dot nor more of the name follows it. -/
lemma IsBareName.key_eq {name : String} (h : IsBareName name) (depth : Nat) {rest r : List Char}
    {c : Char} (hbare : ∀ d ∈ rest.head?, isBare d = false)
    (hrest : rest.dropWhile isSpace = c :: r) (hdot : c ≠ '.') :
    key (depth + 1) (name.toList ++ rest) = .ok ([name], c :: r) := by
  obtain ⟨htake, hdrop⟩ := Token.takeWhile_append_eq h.bare hbare
  obtain ⟨d, ds, hcons, hd⟩ := h.exists_cons
  have hpart : keyPart (name.toList ++ rest) = .ok (name, rest) := by
    rw [hcons, List.cons_append, keyPart, if_pos hd, ← List.cons_append, ← hcons, htake, hdrop,
      String.ofList_toList]
  rw [key, hpart]
  dsimp only [bind, Except.bind]
  rw [hrest]
  split
  · next heq => exact absurd (List.cons.inj heq).1 hdot
  · rfl

/-! ### Assignments -/

/-- A line that assigns a value to a bare name. -/
inductive Assigns : String × Value → String → Prop where
  | mk {name text : String} {v : Value} (bare : IsBareName name) (reads : ReadsBack v text) :
      Assigns (name, v) (name ++ " = " ++ text)

section Assignments

variable {e : String × Value} {line : String}

lemma Assigns.exists_cons (h : Assigns e line) : ∃ c r, line.toList = c :: r ∧ isBare c = true := by
  obtain ⟨hname, -⟩ := h
  obtain ⟨c, r, hcons, hc⟩ := hname.exists_cons
  exact ⟨c, _, by rw [String.toList_append, String.toList_append, hcons]; rfl, hc⟩

lemma Assigns.unreturned (h : Assigns e line) : '\r' ∉ line.toList := by
  obtain ⟨hname, hreads⟩ := h
  have hequals : '\r' ∉ " = ".toList := by decide
  rw [String.toList_append, String.toList_append, List.mem_append, List.mem_append]
  exact not_or.mpr ⟨not_or.mpr ⟨hname.unreturned, hequals⟩, hreads.unreturned⟩

/-- The key and the value of an assignment are read one after the other; `n` counts the characters
of the value. -/
lemma Assigns.read (h : Assigns e line) (depth : Nat) (rest : List Char) :
    ∃ r n, key (depth + 1) (line.toList ++ rest) = .ok ([e.1], '=' :: r) ∧
      n ≤ line.toList.length ∧ n ≤ r.length ∧
      ∀ depth, 2 * n < depth → Ends rest →
        value depth (r.dropWhile isSpace) = .ok (e.2, rest) := by
  cases h with
  | @mk name text v hname hreads =>
      have hline : (name ++ " = " ++ text).toList =
          name.toList ++ ' ' :: '=' :: ' ' :: text.toList := by
        rw [String.toList_append, String.toList_append, List.append_assoc]
        rfl
      obtain ⟨c, r, htext, hopens⟩ := hreads.opens
      have hspace : isSpace c = false := by
        simp only [opensValue, isFiller, Bool.and_eq_true, Bool.not_eq_true',
          Bool.or_eq_false_iff] at hopens
        exact hopens.1.1.1
      have hdrop : (' ' :: (text.toList ++ rest)).dropWhile isSpace = text.toList ++ rest := by
        rw [htext, List.cons_append, dropWhile_blank hspace]
      refine ⟨' ' :: (text.toList ++ rest), text.toList.length, ?_, ?_, ?_,
        fun depth hdepth hrest => ?_⟩
      · rw [hline, List.append_assoc]
        refine hname.key_eq depth ?_ rfl (by decide)
        rintro d ⟨⟩
        decide
      · rw [hline, List.length_append]
        simp only [List.length_cons]
        omega
      · rw [List.length_cons, List.length_append]
        omega
      · rw [hdrop]
        exact hreads.reads depth rest hdepth hrest

end Assignments

/-- A text of characters that stand for themselves is assigned between double quotes. -/
lemma Assigns.quoted {name s : String} (hname : IsBareName name)
    (hs : isPlainText s = true) :
    Assigns (name, .text s) (name ++ " = \"" ++ s ++ "\"") := by
  have hline : name ++ " = \"" ++ s ++ "\"" = name ++ " = " ++ ("\"" ++ s ++ "\"") := by
    have hsplit : " = \"" = " = " ++ "\"" := rfl
    rw [hsplit]
    simp only [String.append_assoc]
  rw [hline]
  exact .mk hname (readsBack_quoted hs)

/-! ### Tables on one line -/

/-- A table on one line that holds entries, and where nothing else was frozen. -/
structure InlineTable.Holds (t : InlineTable) (es : Table) : Prop where
  entries : t.entries = es
  frozen : ∀ key ∈ t.frozen, ∃ e ∈ es, key = [e.1]

/-- A value is assigned to a new name. -/
lemma InlineTable.Holds.assign {t : InlineTable} {es : Table} (h : t.Holds es)
    {e : String × Value} (hnew : e.1 ∉ es.map Prod.fst) :
    ∃ t', t.assign [e.1] e.2 = .ok t' ∧ t'.Holds (es ++ [e]) := by
  have hfrozen : liesIn t.frozen [e.1] = false := by
    rw [liesIn, List.any_eq_false]
    intro key hkey hbelow
    obtain ⟨e', he', rfl⟩ := h.frozen key hkey
    simp only [List.isPrefixOf, Bool.and_true, beq_iff_eq] at hbelow
    exact hnew (hbelow ▸ List.mem_map_of_mem he')
  have hput : Table.assignNew (.duplicateName e.1) e.1 e.2 t.entries = .ok (es ++ [e]) := by
    rw [Table.assignNew, h.entries, Assoc.lookup_eq_none_iff.mpr hnew, Table.put,
      Assoc.put_of_not_mem hnew]
    rfl
  have hassign : t.assign [e.1] e.2 =
      .ok ⟨es ++ [e], if e.2.isCompound then [e.1] :: t.frozen else t.frozen⟩ := by
    simp only [InlineTable.assign, hfrozen, Bool.false_eq_true, if_false, List.getLastD_cons,
      List.getLastD_nil, List.dropLast_singleton, Table.modifyAt, hput]
    rfl
  refine ⟨_, hassign, rfl, fun key hkey => ?_⟩
  have hcases : key = [e.1] ∨ key ∈ t.frozen := by
    split at hkey
    · exact List.mem_cons.mp hkey
    · exact .inr hkey
  rcases hcases with rfl | hkey
  · exact ⟨e, List.mem_append_right es List.mem_cons_self, rfl⟩
  · obtain ⟨e', he', heq⟩ := h.frozen key hkey
    exact ⟨e', List.mem_append_left _ he', heq⟩

/-- A blank in front of an entry is passed over. -/
lemma Assigns.dropWhile_space {e : String × Value} {line : String} (h : Assigns e line)
    (rest : List Char) :
    (' ' :: (line.toList ++ rest)).dropWhile isSpace = line.toList ++ rest := by
  obtain ⟨c, r, hcons, hc⟩ := h.exists_cons
  rw [hcons, List.cons_append, dropWhile_blank (isSpace_of_isBare hc)]

/-- The first entry of a table on one line, with the brace that ends it or a comma behind it. -/
lemma entries_of_assigns {e : String × Value} {line : String} (h : Assigns e line) {depth : Nat}
    (hdepth : 2 * line.toList.length < depth) {t t' : InlineTable}
    (hassign : t.assign [e.1] e.2 = .ok t') (rest : List Char) :
    entries (depth + 1) t (line.toList ++ ' ' :: '\x7d' :: rest) = .ok (t', rest) ∧
      entries (depth + 1) t (line.toList ++ ',' :: rest) =
        entries depth t' (rest.dropWhile isSpace) := by
  constructor
  · obtain ⟨r, n, hkey, hn, -, hvalue⟩ := h.read
      (line.toList ++ ' ' :: '\x7d' :: rest).length (' ' :: '\x7d' :: rest)
    have hvalue := hvalue depth (by omega) (ends_of_mem (by decide) _)
    simp only [entries, hkey, hvalue, hassign, bind, Except.bind]
    rfl
  · obtain ⟨r, n, hkey, hn, -, hvalue⟩ := h.read (line.toList ++ ',' :: rest).length (',' :: rest)
    have hvalue := hvalue depth (by omega) (ends_of_mem (by decide) _)
    simp only [entries, hkey, hvalue, hassign, bind, Except.bind]
    rfl

/-- The entries of a table on one line are read up to its brace. -/
lemma entries_joined {es : Table} {lines : List String} (h : List.Forall₂ Assigns es lines)
    (hne : lines ≠ []) {t : InlineTable} {before : Table} (ht : t.Holds before)
    (hnew : ((before ++ es).map Prod.fst).Nodup) {depth : Nat}
    (hdepth : 2 * (joined lines).length + 1 < depth) (rest : List Char) :
    ∃ t', entries depth t (joined lines ++ ' ' :: '\x7d' :: rest) = .ok (t', rest) ∧
      t'.entries = before ++ es := by
  induction h generalizing t before depth with
  | nil => exact absurd rfl hne
  | @cons e line es lines hfirst hothers ih =>
      obtain ⟨depth, rfl⟩ : ∃ k, depth = k + 2 := ⟨depth - 2, by omega⟩
      have hfresh : e.1 ∉ before.map Prod.fst := by
        rw [List.map_append, List.map_cons] at hnew
        exact fun hmem => (List.disjoint_of_nodup_append hnew) hmem List.mem_cons_self
      obtain ⟨t', hassign, ht'⟩ := ht.assign hfresh
      cases hothers with
      | nil =>
          rw [joined_singleton] at hdepth ⊢
          exact ⟨t', (entries_of_assigns hfirst (by omega) hassign rest).1, ht'.entries⟩
      | @cons e' other es lines hsecond hothers =>
          rw [joined_cons_cons, List.length_append, List.length_cons, List.length_cons] at hdepth
          rw [List.append_cons] at hnew
          have hdepth' : 2 * (joined (other :: lines)).length + 1 < depth + 1 := by omega
          obtain ⟨t'', hread, hentries⟩ := ih (List.cons_ne_nil _ _) ht' hnew hdepth'
          refine ⟨t'', ?_, by rw [hentries, List.append_assoc, List.singleton_append]⟩
          rw [joined_cons_cons, List.append_assoc, List.cons_append, List.cons_append,
            (entries_of_assigns hfirst (by omega) hassign _).2]
          obtain ⟨tail, htail⟩ := exists_joined_cons other lines
          rw [htail, List.append_assoc] at hread ⊢
          rw [hsecond.dropWhile_space, hread]

/-- A table on one line is read back if its entries are. -/
lemma readsBack_table {es : Table} {lines : List String} (h : List.Forall₂ Assigns es lines)
    (hne : lines ≠ []) (hnew : (es.map Prod.fst).Nodup) :
    ReadsBack (.table es) ("\x7b " ++ ", ".intercalate lines ++ " \x7d") := by
  have htext : ("\x7b " ++ ", ".intercalate lines ++ " \x7d").toList =
      '\x7b' :: ' ' :: (joined lines ++ [' ', '\x7d']) := by
    rw [String.toList_append, String.toList_append]
    rfl
  refine ⟨⟨_, _, htext, by decide⟩, ?_, fun depth rest hdepth _ => ?_⟩
  · have hjoined : '\r' ∉ joined lines := by
      refine not_mem_joined (by decide) fun line hline => ?_
      obtain ⟨e, -, he⟩ := Listwise.exists_of_mem_right h hline
      exact he.unreturned
    rw [htext]
    simpa using hjoined
  · rw [htext, List.length_cons, List.length_cons, List.length_append] at hdepth
    obtain ⟨depth, rfl⟩ : ∃ k, depth = k + 1 := ⟨depth - 1, by omega⟩
    have hempty : InlineTable.Holds {} [] := ⟨rfl, nofun⟩
    have hdepth' : 2 * (joined lines).length + 1 < depth := by omega
    obtain ⟨t, hread, ht⟩ := entries_joined h hne hempty hnew hdepth' rest
    rw [htext, List.cons_append, List.cons_append, List.append_assoc, value, if_neg (by decide),
      if_neg (by decide), if_pos (by decide)]
    cases h with
    | nil => exact absurd rfl hne
    | @cons e line es lines hfirst _ =>
        obtain ⟨tail, htail⟩ := exists_joined_cons line lines
        obtain ⟨c, r, hcons, hc⟩ := hfirst.exists_cons
        rw [htail, List.append_assoc] at hread ⊢
        rw [hfirst.dropWhile_space]
        split
        · next heq =>
          rw [hcons] at heq
          exact absurd (List.cons.inj heq).1 (ne_of_isBare hc (by decide))
        · refine (congrArg _ hread).trans ?_
          rw [List.nil_append] at ht
          rw [← ht]
          rfl

end AbiBridge.Toml
