import AbiBridge.Proofs.Toml.Assignments

/-!
Documents of sections are read back.

A section is a header with a name and the assignments behind it. The names of the sections are
distinct, and so are those that are assigned in one of them; thus no header meets a table that was
opened before, and no assignment a value. The lines are taken one by one: each turns a document that
holds the sections so far into one that holds one section or one entry more.

* `Document.Holds`: a document is made of sections, the last of which is open;
* `Turns`, `Reaches.append`: a line that makes one document of another one, and lines read in a row;
* `Writes`: lines that write down sections;
* `Writes.parse_eq`: such lines are read as the table of the sections.
-/

namespace AbiBridge.Toml

open Outcome Text

/-! ### Documents -/

/-- The table of sections. -/
def sectionTable (sections : List (String × Table)) : Table :=
  sections.map fun s => (s.1, .table s.2)

lemma map_fst_sectionTable (sections : List (String × Table)) :
    (sectionTable sections).map Prod.fst = sections.map Prod.fst := List.map_map

lemma sectionTable_append (sections others : List (String × Table)) :
    sectionTable (sections ++ others) = sectionTable sections ++ sectionTable others :=
  List.map_append

namespace Document

/-- A document that is made of sections, the last of which is open. Nothing is frozen but values in
sections, and nothing was opened but the sections themselves. -/
structure Holds (d : Document) (sections : List (String × Table)) : Prop where
  root : d.root = sectionTable sections
  distinct : (sections.map Prod.fst).Nodup
  header : d.header = (sections.getLast?.map Prod.fst).toList
  frozen : ∀ key ∈ d.frozen, key.length = 2
  opened : ∀ key ∈ d.opened, ∃ s ∈ sections, key = [s.1]
  pending : d.pending = []

lemma holds_nil : Holds {} [] := ⟨rfl, List.nodup_nil, rfl, nofun, nofun, rfl⟩

variable {d : Document} {sections : List (String × Table)}

/-- A section is not frozen. -/
lemma Holds.liesIn_frozen (h : d.Holds sections) (name : String) :
    liesIn d.frozen [name] = false := by
  rw [liesIn, List.any_eq_false]
  intro key hkey hbelow
  have hlength := (List.isPrefixOf_iff_prefix.mp hbelow).length_le
  rw [h.frozen key hkey] at hlength
  exact Nat.not_succ_le_self 1 hlength

/-- A section of a new name is opened. -/
lemma Holds.openTable (h : d.Holds sections) {name : String} (hnew : name ∉ sections.map Prod.fst) :
    ∃ d', d.settle.openTable [name] = .ok d' ∧ d'.Holds (sections ++ [(name, [])]) := by
  have hopened : d.opened.contains [name] = false := by
    rw [List.contains_eq_mem, decide_eq_false_iff_not]
    intro hmem
    obtain ⟨s, hs, heq⟩ := h.opened _ hmem
    rw [List.singleton_inj.mp heq] at hnew
    exact hnew (List.mem_map_of_mem hs)
  have hroot : d.root.modifyAt true pure [name] =
      .ok (sectionTable (sections ++ [(name, [])])) := by
    have hfresh : name ∉ d.root.map Prod.fst := by rwa [h.root, map_fst_sectionTable]
    rw [Table.modifyAt, Assoc.lookup_eq_none_iff.mpr hfresh]
    dsimp only [Table.modifyAt, bind, Except.bind, pure, Except.pure]
    rw [Table.put, Assoc.put_of_not_mem hfresh, h.root, sectionTable_append]
    rfl
  refine ⟨{ d.settle with
    root := sectionTable (sections ++ [(name, [])]), header := [name],
    opened := [name] :: d.settle.opened }, ?_, rfl, ?_, ?_, h.frozen, ?_, rfl⟩
  · simp only [Document.openTable, settle, h.pending, List.append_nil, hopened,
      h.liesIn_frozen, hroot, bind, Except.bind]
    rfl
  · rw [List.map_append]
    exact List.nodup_append.mpr ⟨h.distinct, List.nodup_singleton name, by
      rintro a ha b hb rfl
      have hname : a = name := List.mem_singleton.mp hb
      exact hnew (hname ▸ ha)⟩
  · rw [List.getLast?_concat]
    rfl
  · intro key hkey
    rw [settle, h.pending, List.append_nil] at hkey
    rcases List.mem_cons.mp hkey with rfl | hkey
    · exact ⟨_, List.mem_append_right _ List.mem_cons_self, rfl⟩
    · obtain ⟨s, hs, heq⟩ := h.opened key hkey
      exact ⟨s, List.mem_append_left _ hs, heq⟩

/-- A value is assigned to a new name in the open section. -/
lemma Holds.assign {name : String} {t : Table} (h : d.Holds (sections ++ [(name, t)]))
    {e : String × Value} (hnew : e.1 ∉ t.map Prod.fst) :
    ∃ d', d.assign [e.1] e.2 = .ok d' ∧ d'.Holds (sections ++ [(name, t ++ [e])]) := by
  have hheader : d.header = [name] := by
    rw [h.header, List.getLast?_concat]
    rfl
  have hold : name ∉ (sectionTable sections).map Prod.fst := by
    have hdistinct := h.distinct
    rw [List.map_append] at hdistinct
    rw [map_fst_sectionTable]
    exact fun hmem => List.disjoint_of_nodup_append hdistinct hmem List.mem_cons_self
  have hlookup : List.lookup name d.root = some (.table t) := by
    rw [h.root, sectionTable_append, List.lookup_append, Assoc.lookup_eq_none_iff.mpr hold]
    exact List.lookup_cons_self
  have hput : Table.assignNew .overwritten e.1 e.2 t = .ok (t ++ [e]) := by
    rw [Table.assignNew, Assoc.lookup_eq_none_iff.mpr hnew, Table.put, Assoc.put_of_not_mem hnew]
    rfl
  have hroot : d.root.modifyAt true (Table.assignNew .overwritten e.1 e.2) [name] =
      .ok (sectionTable (sections ++ [(name, t ++ [e])])) := by
    rw [Table.modifyAt, hlookup]
    dsimp only [Table.modifyAt, bind, Except.bind, pure, Except.pure]
    rw [hput]
    dsimp only
    rw [h.root, sectionTable_append, sectionTable_append]
    exact congrArg _ (Assoc.put_append_singleton hold _ _)
  refine ⟨{ d with
    root := sectionTable (sections ++ [(name, t ++ [e])]),
    frozen := if e.2.isCompound then [name, e.1] :: d.frozen else d.frozen },
    ?_, rfl, ?_, ?_, ?_, ?_, h.pending⟩
  · have hbetween : through [name] [e.1] = [] := rfl
    simp only [Document.assign, hheader, hbetween, List.find?_nil, List.getLastD_cons,
      List.getLastD_nil, List.dropLast_singleton, List.append_nil, h.liesIn_frozen, hroot, bind,
      Except.bind]
    rfl
  · have hdistinct := h.distinct
    rwa [List.map_append] at hdistinct ⊢
  · rw [List.getLast?_concat]
    exact hheader
  · intro key hkey
    split at hkey
    · rcases List.mem_cons.mp hkey with rfl | hkey
      · rfl
      · exact h.frozen key hkey
    · exact h.frozen key hkey
  · intro key hkey
    obtain ⟨s, hs, rfl⟩ := h.opened key hkey
    rcases List.mem_append.mp hs with hs | hs
    · exact ⟨s, List.mem_append_left _ hs, rfl⟩
    · rw [List.mem_singleton.mp hs]
      exact ⟨_, List.mem_append_right _ List.mem_cons_self, rfl⟩

end Document

/-! ### Lines -/

/-- Nothing is left out of characters without a carriage return. -/
lemma unifyNewlines_append {cs : List Char} (h : '\r' ∉ cs) (rest : List Char) :
    unifyNewlines (cs ++ rest) = cs ++ unifyNewlines rest := by
  induction cs with
  | nil => rfl
  | cons c cs ih =>
      rw [List.mem_cons, not_or] at h
      rw [List.cons_append, unifyNewlines, ih h.2, List.cons_append]
      exact fun _ hc _ => h.1 hc.symm

/-- The characters of lines, each of which ends in a line feed. -/
def lineChars (ls : List String) : List Char := ls.flatMap fun line => line.toList ++ ['\n']

lemma lineChars_append (ls ls' : List String) :
    lineChars (ls ++ ls') = lineChars ls ++ lineChars ls' := List.flatMap_append

lemma lineChars_singleton (line : String) : lineChars [line] = line.toList ++ ['\n'] :=
  List.flatMap_singleton _ _

/-- Each line has a character of its own. -/
lemma length_le_length_lineChars (ls : List String) : ls.length ≤ (lineChars ls).length := by
  induction ls with
  | nil => exact Nat.le_refl 0
  | cons line ls ih =>
      rw [lineChars, List.flatMap_cons, List.length_append, List.length_append, List.length_cons]
      rw [lineChars] at ih
      simp only [List.length_cons, List.length_nil]
      omega

/-- A line without blanks in front is read as it stands. -/
lemma lines_cons {c : Char} (hc : isSpace c = false) (count : Nat) (d : Document) (r : List Char) :
    lines (count + 1) d (c :: r) = statement d (c :: r) >>= fun (d, r) =>
      nextLine false r >>= fun r => lines count d r := by
  rw [lines, List.dropWhile_cons_of_neg (by simp [hc])]

/-- A line that makes one document of another one. -/
structure Turns (d : Document) (line : String) (d' : Document) : Prop where
  unindented : ∀ c ∈ line.toList.head?, isSpace c = false
  statement_eq : ∀ rest,
    statement d (line.toList ++ '\n' :: rest) = .ok (d', '\n' :: rest)

/-- Lines from which a document is read. -/
def Reaches (ls : List String) (d : Document) : Prop :=
  ∀ count rest, lines (ls.length + count) {} (lineChars ls ++ rest) = lines count d rest

/-- One more line is read. -/
lemma Reaches.append {ls : List String} {line : String} {d d' : Document} (h : Reaches ls d)
    (hline : Turns d line d') : Reaches (ls ++ [line]) d' := by
  intro count rest
  obtain ⟨c, r, hcons, hc⟩ : ∃ c r, line.toList ++ '\n' :: rest = c :: r ∧ isSpace c = false := by
    have hhead := hline.unindented
    cases hcs : line.toList with
    | nil => exact ⟨'\n', rest, rfl, rfl⟩
    | cons c r => exact ⟨c, _, rfl, hhead c (by rw [hcs]; rfl)⟩
  have hstep : lines (count + 1) d (line.toList ++ '\n' :: rest) = lines count d' rest := by
    rw [hcons, lines_cons hc, ← hcons, hline.statement_eq]
    rfl
  rw [List.length_append, List.length_singleton, Nat.add_assoc, lineChars_append,
    List.append_assoc, h, lineChars_singleton, List.append_assoc, List.singleton_append,
    Nat.add_comm, hstep]

/-- An empty line changes nothing. -/
lemma turns_empty (d : Document) : Turns d "" d := ⟨nofun, fun _ => rfl⟩

/-- A header opens a table. -/
lemma turns_header {d d' : Document} {name : String} (hname : IsBareName name)
    (h : d.settle.openTable [name] = .ok d') : Turns d ("[" ++ name ++ "]") d' := by
  have hline : ("[" ++ name ++ "]").toList = '[' :: (name.toList ++ [']']) := by
    rw [String.toList_append, String.toList_append]
    rfl
  refine ⟨?_, fun rest => ?_⟩
  · rw [hline]
    rintro c ⟨⟩
    rfl
  · obtain ⟨c, r, hcons, hc⟩ := hname.exists_cons
    have hbracket : ∀ d ∈ (']' :: '\n' :: rest).head?, isBare d = false := by
      rintro d ⟨⟩
      rfl
    have hkey := hname.key_eq (name.toList ++ ']' :: '\n' :: rest).length hbracket rfl (by decide)
    have hspace : ¬isSpace c = true := by rw [isSpace_of_isBare hc]; exact Bool.false_ne_true
    have hread : tableHeader d.settle (name.toList ++ ']' :: '\n' :: rest) =
        .ok (d', '\n' :: rest) := by
      have hdrop : (name.toList ++ ']' :: '\n' :: rest).dropWhile isSpace =
          name.toList ++ ']' :: '\n' :: rest := by
        rw [hcons, List.cons_append, List.dropWhile_cons_of_neg hspace]
      simp only [tableHeader, hdrop, hkey, h, bind, Except.bind]
      rfl
    rw [hline, List.cons_append, List.append_assoc, List.singleton_append, statement.eq_def]
    split
    · next heq => cases heq
    · next heq =>
      rw [hcons] at heq
      exact absurd (List.cons.inj (List.cons.inj heq).2).1 (ne_of_isBare hc (by decide))
    · next heq =>
      rw [← (List.cons.inj heq).2, hread]
    · next htable heq => exact absurd (List.cons.inj heq).1.symm htable

/-- What begins as a bare name does is an assignment. -/
lemma statement_of_isBare {c : Char} (hc : isBare c = true) (d : Document) (r : List Char) :
    statement d (c :: r) = assignment d (c :: r) := by
  rw [statement.eq_def]
  split
  · next heq => cases heq
  · next heq => exact absurd (List.cons.inj heq).1 (ne_of_isBare hc (by decide))
  · next heq => exact absurd (List.cons.inj heq).1 (ne_of_isBare hc (by decide))
  · next heq => rw [← heq, ← (List.cons.inj heq).1, hc, Bool.true_or, if_pos rfl]

/-- An assignment puts a value under a name. -/
lemma turns_assigns {d d' : Document} {e : String × Value} {line : String} (hline : Assigns e line)
    (h : d.assign [e.1] e.2 = .ok d') : Turns d line d' := by
  obtain ⟨c, r, hcons, hc⟩ := hline.exists_cons
  refine ⟨?_, fun rest => ?_⟩
  · rw [hcons]
    rintro c ⟨⟩
    exact isSpace_of_isBare hc
  · obtain ⟨r', n, hkey, -, hn, hvalue⟩ := hline.read
      (line.toList ++ '\n' :: rest).length ('\n' :: rest)
    have hvalue := hvalue (2 * r'.length + 2) (by omega) (ends_of_mem (by decide) _)
    have hread : assignment d (line.toList ++ '\n' :: rest) = .ok (d', '\n' :: rest) := by
      simp only [assignment, hkey, hvalue, h, bind, Except.bind]
      rfl
    rw [hcons, List.cons_append] at hread ⊢
    rw [statement_of_isBare hc, hread]

/-- Two names with a blank between them are no key. -/
lemma statement_of_blank {name other : String} (hname : IsBareName name) (hother : IsBareName other)
    (d : Document) (rest : List Char) :
    statement d (name.toList ++ ' ' :: (other.toList ++ rest)) = .error .equalsExpected := by
  obtain ⟨c, r, hcons, hc⟩ := hname.exists_cons
  obtain ⟨c', r', hcons', hc'⟩ := hother.exists_cons
  have hdrop : (' ' :: (other.toList ++ rest)).dropWhile isSpace = c' :: (r' ++ rest) := by
    rw [hcons', List.cons_append, dropWhile_blank (isSpace_of_isBare hc')]
  have hkey := hname.key_eq (name.toList ++ ' ' :: (other.toList ++ rest)).length
    (by rintro d ⟨⟩; rfl) hdrop (ne_of_isBare hc' (by decide))
  have hread : assignment d (name.toList ++ ' ' :: (other.toList ++ rest)) =
      .error .equalsExpected := by
    simp only [assignment, hkey, bind, Except.bind]
    split
    · next heq => exact absurd (List.cons.inj heq).1 (ne_of_isBare hc' (by decide))
    · rfl
  rw [hcons, List.cons_append] at hread ⊢
  rw [statement_of_isBare hc, hread]

/-! ### Sections -/

/-- Lines that write down sections: empty lines, headers of new names, and assignments of new names
in the section whose header was the last one. -/
inductive Writes : List (String × Table) → List String → Prop where
  | nil : Writes [] []
  | empty {ss : List (String × Table)} {ls : List String} (front : Writes ss ls) :
      Writes ss (ls ++ [""])
  | header {ss : List (String × Table)} {ls : List String} (front : Writes ss ls) (name : String)
      (bare : IsBareName name) (new : name ∉ ss.map Prod.fst) :
      Writes (ss ++ [(name, [])]) (ls ++ ["[" ++ name ++ "]"])
  | assignment {ss : List (String × Table)} {ls : List String} {name line : String} {t : Table}
      {e : String × Value} (front : Writes (ss ++ [(name, t)]) ls) (assigns : Assigns e line)
      (new : e.1 ∉ t.map Prod.fst) : Writes (ss ++ [(name, t ++ [e])]) (ls ++ [line])

namespace Writes

variable {ss : List (String × Table)} {ls : List String}

/-- Line by line the sections are read. -/
lemma exists_reaches (h : Writes ss ls) : ∃ d, d.Holds ss ∧ Reaches ls d := by
  induction h with
  | nil =>
      refine ⟨_, Document.holds_nil, fun count rest => ?_⟩
      rw [List.length_nil, Nat.zero_add]
      rfl
  | empty _ ih =>
      obtain ⟨d, hd, hreaches⟩ := ih
      exact ⟨d, hd, hreaches.append (turns_empty d)⟩
  | header _ name hname hnew ih =>
      obtain ⟨d, hd, hreaches⟩ := ih
      obtain ⟨d', hopen, hd'⟩ := hd.openTable hnew
      exact ⟨d', hd', hreaches.append (turns_header hname hopen)⟩
  | assignment _ hline hnew ih =>
      obtain ⟨d, hd, hreaches⟩ := ih
      obtain ⟨d', hassign, hd'⟩ := hd.assign hnew
      exact ⟨d', hd', hreaches.append (turns_assigns hline hassign)⟩

lemma unreturned (h : Writes ss ls) : ∀ line ∈ ls, '\r' ∉ line.toList := by
  induction h with
  | nil => exact nofun
  | empty _ ih =>
      exact List.forall_mem_append.mpr ⟨ih, List.forall_mem_singleton.mpr List.not_mem_nil⟩
  | header _ name hname _ ih =>
      refine List.forall_mem_append.mpr ⟨ih, List.forall_mem_singleton.mpr fun hmem => ?_⟩
      rw [String.toList_append, String.toList_append, List.mem_append, List.mem_append] at hmem
      rcases hmem with (hmem | hmem) | hmem
      · exact absurd hmem (by decide)
      · exact hname.unreturned hmem
      · exact absurd hmem (by decide)
  | assignment _ hline _ ih =>
      exact List.forall_mem_append.mpr ⟨ih, List.forall_mem_singleton.mpr hline.unreturned⟩

lemma unreturned_lineChars (h : Writes ss ls) : '\r' ∉ lineChars ls := by
  intro hmem
  obtain ⟨line, hline, hmem⟩ := List.mem_flatMap.mp hmem
  rcases List.mem_append.mp hmem with hmem | hmem
  · exact h.unreturned line hline hmem
  · exact absurd hmem (by decide)

/-- Assignments of new names come into the open section. -/
lemma append_assignments {name : String} {t es : Table} {lines : List String}
    (h : Writes (ss ++ [(name, t)]) ls) (hlines : List.Forall₂ Assigns es lines)
    (hnew : ((t ++ es).map Prod.fst).Nodup) :
    Writes (ss ++ [(name, t ++ es)]) (ls ++ lines) := by
  induction hlines generalizing t ls with
  | nil => rwa [List.append_nil, List.append_nil]
  | @cons e line es lines hfirst _ ih =>
      have hfresh : e.1 ∉ t.map Prod.fst := by
        rw [List.map_append, List.map_cons] at hnew
        exact fun hmem => (List.disjoint_of_nodup_append hnew) hmem List.mem_cons_self
      rw [List.append_cons] at hnew
      have hrest := ih (h.assignment hfirst hfresh) hnew
      rwa [List.append_assoc, List.append_assoc] at hrest

/-- One more section is written down with a header and its assignments. -/
lemma append_section {es : Table} {lines : List String} (h : Writes ss ls) (name : String)
    (hname : IsBareName name) (hnew : name ∉ ss.map Prod.fst)
    (hlines : List.Forall₂ Assigns es lines) (hdistinct : (es.map Prod.fst).Nodup) :
    Writes (ss ++ [(name, es)]) (ls ++ ("[" ++ name ++ "]") :: lines) := by
  have hsection := (h.header name hname hnew).append_assignments hlines hdistinct
  rwa [List.append_assoc] at hsection

/-- **Sections are read back.** -/
theorem parse_eq (h : Writes ss ls) :
    parse (String.ofList (lineChars ls)) = .ok (sectionTable ss) := by
  obtain ⟨d, hd, hreaches⟩ := h.exists_reaches
  obtain ⟨count, hcount⟩ : ∃ count, (lineChars ls).length + 1 = ls.length + count :=
    Nat.exists_eq_add_of_le (Nat.le_succ_of_le (length_le_length_lineChars ls))
  have hlines := hreaches count []
  have hunify := unifyNewlines_append h.unreturned_lineChars []
  rw [unifyNewlines] at hunify
  rw [List.append_nil] at hlines hunify
  rw [parse, String.toList_ofList, hunify, hcount, hlines, ← hd.root]
  cases count <;> rfl

/-- A line that cannot be read spoils the document, whatever stands behind its first characters. -/
theorem parse_eq_error {start : List Char} {fault : Fault} (h : Writes ss ls)
    (hindent : ∃ c r, start = c :: r ∧ isSpace c = false) (hreturn : '\r' ∉ start)
    (hline : ∀ d rest, statement d (start ++ rest) = .error fault) (behind : List Char) :
    parse (String.ofList (lineChars ls ++ (start ++ behind))) = .error fault := by
  obtain ⟨d, -, hreaches⟩ := h.exists_reaches
  have hchars : unifyNewlines (lineChars ls ++ (start ++ behind)) =
      lineChars ls ++ (start ++ unifyNewlines behind) := by
    rw [unifyNewlines_append h.unreturned_lineChars, unifyNewlines_append hreturn]
  have hlt : ls.length < (lineChars ls ++ (start ++ unifyNewlines behind)).length + 1 := by
    have hlength := length_le_length_lineChars ls
    rw [List.length_append]
    omega
  obtain ⟨count, hcount⟩ := Nat.exists_eq_add_of_lt hlt
  have hfault : lines (count + 1) d (start ++ unifyNewlines behind) = .error fault := by
    have hline := hline d (unifyNewlines behind)
    obtain ⟨c, r, rfl, hc⟩ := hindent
    rw [List.cons_append] at hline ⊢
    rw [lines_cons hc, hline]
    rfl
  rw [parse, String.toList_ofList, hchars, hcount, Nat.add_assoc, hreaches, hfault]
  rfl

end Writes

end AbiBridge.Toml
