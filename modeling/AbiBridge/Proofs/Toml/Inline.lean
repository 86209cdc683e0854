import AbiBridge.Proofs.Listwise
import AbiBridge.Proofs.Toml.Escape
import AbiBridge.Proofs.Toml.Values

/-!
Values in their inline form are read back.

Between double quotes a printable character of ASCII stands for itself or is escaped, and another
character of the basic plane is escaped by its digits. A character beyond is written as a pair of
escapes; the reader knows no such pairs, and the first escape stops it.

* `Spells`: the characters between double quotes and those they are read as;
* `spells_inlineChar`, `basicText_flatMap_of_not_isBasic`: a basic character is read back, and any
  other stops the reader;
* `items_joined`: the items of a list are read up to its bracket;
* `Legible`: truth values, integers, texts of printable ASCII, and lists of those;
* `Legible.readsBack`: the inline form of such a value is read back as the value.
-/

namespace AbiBridge.Toml

open Outcome Text

/-! ### Texts -/

/-- Whether a character stands for itself between double quotes. -/
def isPlain (c : Char) : Bool := c != doubleQuote && c != backslash && !isControl c

/-- Whether a text may stand between double quotes as it is. -/
def isPlainText (s : String) : Bool := s.toList.all isPlain

/-- Whether a character is a printable one of ASCII. -/
def isPrintableAscii (c : Char) : Bool := 0x20 ≤ c.toNat && c.toNat ≤ 0x7E

lemma isBasic_of_isPrintableAscii {c : Char} (h : isPrintableAscii c = true) :
    isBasic c = true := by
  simp only [isPrintableAscii, Bool.and_eq_true, decide_eq_true_eq] at h
  exact decide_eq_true (by omega)

/-- The characters between double quotes that are read as the given ones. -/
inductive Spells : List Char → List Char → Prop where
  | nil : Spells [] []
  | plain {c : Char} {body cs : List Char} (plain : isPlain c = true) (rest : Spells body cs) :
      Spells (c :: body) (c :: cs)
  | escaped {c : Char} {code body cs : List Char} (escape : IsEscape code c)
      (rest : Spells body cs) : Spells (backslash :: code ++ body) (c :: cs)

/-- A character that stands for itself. -/
lemma basicText_plain {c : Char} (h : isPlain c = true) (r : List Char) :
    basicText (c :: r) = (basicText r).map fun (s, out) => (c :: s, out) := by
  simp only [isPlain, Bool.and_eq_true, bne_iff_ne, Bool.not_eq_true'] at h
  obtain ⟨⟨hquote, hbackslash⟩, hcontrol⟩ := h
  rw [basicText]
  simp only [beq_iff_eq, hquote, hbackslash, hcontrol, if_false, Bool.false_eq_true]

/-- An escape of a character. -/
lemma basicText_escaped {c : Char} {code : List Char} (h : IsEscape code c) (r : List Char) :
    basicText (backslash :: code ++ r) = (basicText r).map fun (s, out) => (c :: s, out) := by
  rw [List.cons_append, basicText, if_neg (by decide), if_pos (by decide)]
  split
  · next fault herror =>
    rw [h.reads] at herror
    cases herror
  · next d out hread =>
    rw [h.reads] at hread
    cases hread
    rfl

/-- What no escape begins with stops the reader. -/
lemma basicText_of_escape_error {fault : Fault} {r : List Char} (h : escape r = .error fault) :
    basicText (backslash :: r) = .error fault := by
  rw [basicText, if_neg (by decide), if_pos (by decide)]
  split
  · next fault' herror =>
    rw [h] at herror
    cases herror
    rfl
  · next hread =>
    rw [h] at hread
    cases hread

/-- What is spelled is read in front of the rest. -/
lemma Spells.basicText_append {body cs : List Char} (h : Spells body cs) (r : List Char) :
    basicText (body ++ r) = (basicText r).map fun (s, out) => (cs ++ s, out) := by
  induction h with
  | nil =>
      rw [List.nil_append]
      cases basicText r <;> rfl
  | plain hplain _ ih =>
      rw [List.cons_append, basicText_plain hplain, ih]
      cases basicText r <;> rfl
  | escaped hcode _ ih =>
      rw [List.append_assoc, basicText_escaped hcode, ih]
      cases basicText r <;> rfl

lemma Spells.basicText_eq {body cs : List Char} (h : Spells body cs) (rest : List Char) :
    basicText (body ++ doubleQuote :: rest) = .ok (cs, rest) := by
  have hquote : basicText (doubleQuote :: rest) = .ok ([], rest) := by
    rw [basicText]
    rfl
  rw [h.basicText_append, hquote, Except.map]
  dsimp only
  rw [List.append_nil]

lemma Spells.unreturned {body cs : List Char} (h : Spells body cs) : '\r' ∉ body := by
  induction h with
  | nil => exact List.not_mem_nil
  | plain hplain _ ih =>
      refine fun hmem => (List.mem_cons.mp hmem).elim ?_ ih
      rintro rfl
      exact absurd hplain (by decide)
  | escaped hcode _ ih =>
      rw [List.mem_append, not_or]
      exact ⟨List.not_mem_cons_of_ne_of_not_mem (by decide) hcode.unreturned, ih⟩

/-- What is between double quotes does not begin with one. -/
lemma Spells.head_ne {body cs : List Char} (h : Spells body cs) :
    ∀ c ∈ body.head?, c ≠ doubleQuote := by
  cases h with
  | nil => exact nofun
  | plain hplain _ =>
      simp only [isPlain, Bool.and_eq_true, bne_iff_ne] at hplain
      rintro c ⟨⟩
      exact hplain.1.1
  | escaped _ _ =>
      rintro c ⟨⟩
      decide

/-- A quote alone does not open the long form. -/
lemma afterQuotes?_cons {c : Char} (h : c ≠ doubleQuote) (r : List Char) :
    afterQuotes? doubleQuote (doubleQuote :: c :: r) = none := by
  have hc : (c == doubleQuote) = false := beq_false_of_ne h
  cases r <;> simp [afterQuotes?, hc]

/-- A text in double quotes is in the short form, since no third quote follows two of them. -/
lemma Spells.text_eq {body cs : List Char} (h : Spells body cs) {rest : List Char}
    (hrest : Ends rest) :
    text doubleQuote (body ++ doubleQuote :: rest) = .ok (String.ofList cs, rest) := by
  have hshort : afterQuotes? doubleQuote (doubleQuote :: (body ++ doubleQuote :: rest)) = none := by
    cases body with
    | nil =>
        cases rest with
        | nil => rfl
        | cons c r => rcases hrest.head_cases rfl with rfl | rfl | rfl | rfl <;> rfl
    | cons c body => exact afterQuotes?_cons (h.head_ne c rfl) _
  rw [text, hshort]
  dsimp only
  rw [shortText, if_pos (by decide), h.basicText_eq]
  rfl

/-- A text in double quotes is read back as what is spelled between them. -/
lemma Spells.readsBack {body cs : List Char} (h : Spells body cs) :
    ReadsBack (.text (String.ofList cs))
      (String.ofList (doubleQuote :: body ++ [doubleQuote])) := by
  have hreturn : '\r' ∉ doubleQuote :: body ++ [doubleQuote] := by
    have hquote : '\r' ∉ [doubleQuote] := by decide
    simpa only [List.cons_append, List.mem_cons, List.mem_append, not_or, List.not_mem_nil,
      not_false_eq_true, and_true] using
      And.intro (List.ne_of_not_mem_cons hquote) ⟨h.unreturned, List.ne_of_not_mem_cons hquote⟩
  refine ⟨⟨doubleQuote, body ++ [doubleQuote], String.toList_ofList, rfl⟩,
    by rwa [String.toList_ofList], fun depth rest hdepth hrest => ?_⟩
  obtain ⟨depth, rfl⟩ : ∃ k, depth = k + 1 := ⟨depth - 1, by omega⟩
  rw [String.toList_ofList, List.append_assoc, List.cons_append, value, if_pos (by decide),
    List.singleton_append, h.text_eq hrest]
  rfl

/-- What stands for a basic character is read as it. -/
lemma spells_inlineChar {c : Char} (hc : isBasic c = true) {body cs : List Char}
    (h : Spells body cs) : Spells (inlineChar c ++ body) (c :: cs) := by
  have hcode (n : ℕ) (hn : c.toNat = n) : c = Char.ofNat n := by rw [← hn, Char.ofNat_toNat]
  rw [inlineChar]
  by_cases hspecial : (c == doubleQuote || c == backslash) = true
  · rw [if_pos hspecial]
    rcases (Bool.or_eq_true_iff.mp hspecial).imp beq_iff_eq.mp beq_iff_eq.mp with rfl | rfl
    · exact .escaped ⟨by decide, fun _ => rfl⟩ h
    · exact .escaped ⟨by decide, fun _ => rfl⟩ h
  rw [if_neg hspecial]
  split
  · next hline =>
    rw [beq_iff_eq.mp hline]
    exact .escaped ⟨by decide, fun _ => rfl⟩ h
  split
  · next hreturn =>
    rw [beq_iff_eq.mp hreturn]
    exact .escaped ⟨by decide, fun _ => rfl⟩ h
  split
  · next htab =>
    rw [beq_iff_eq.mp htab]
    exact .escaped ⟨by decide, fun _ => rfl⟩ h
  split
  · next hbackspace =>
    rw [hcode _ hbackspace]
    exact .escaped ⟨by decide, fun _ => rfl⟩ h
  split
  · next hfeed =>
    rw [hcode _ hfeed]
    exact .escaped ⟨by decide, fun _ => rfl⟩ h
  split
  · next hvisible =>
    refine .plain ?_ h
    simp only [Bool.and_eq_true, decide_eq_true_eq] at hvisible
    have hcontrol : isControl c = false := by
      rw [isControl, Bool.or_eq_false_iff, Bool.and_eq_false_imp]
      exact ⟨fun hlow => absurd (of_decide_eq_true hlow) (by omega), decide_eq_false (by omega)⟩
    rw [Bool.or_eq_true, not_or] at hspecial
    simp only [isPlain, bne, hcontrol, Bool.not_eq_true, Bool.and_eq_true] at hspecial ⊢
    simp only [hspecial, Bool.not_false, and_self]
  · rw [units, if_pos (of_decide_eq_true hc), List.flatMap_singleton]
    exact .escaped (isEscape_unit hc) h

/-- What stands for a character does not begin with a quote. -/
lemma exists_inlineChar_cons (c : Char) : ∃ d r, inlineChar c = d :: r ∧ d ≠ doubleQuote := by
  have hescape (r : List Char) : ∃ d r', backslash :: r = d :: r' ∧ d ≠ doubleQuote :=
    ⟨_, _, rfl, by decide⟩
  rw [inlineChar]
  by_cases hspecial : (c == doubleQuote || c == backslash) = true
  · rw [if_pos hspecial]
    exact hescape _
  rw [if_neg hspecial]
  split
  · exact hescape _
  split
  · exact hescape _
  split
  · exact hescape _
  split
  · exact hescape _
  split
  · exact hescape _
  split
  · rw [Bool.or_eq_true, not_or, beq_iff_eq] at hspecial
    exact ⟨_, _, rfl, hspecial.1⟩
  · rw [units]
    split <;> exact hescape _

/-- The pair of escapes that stands for a character beyond the basic plane. -/
lemma exists_inlineChar_eq {c : Char} (hc : isBasic c = false) : ∃ n r, n < 0x400 ∧
    inlineChar c = backslash :: ('u' :: hexDigits 4 (0xD800 + n) ++ r) := by
  have hbeyond : 0x10000 ≤ c.toNat := Nat.le_of_not_lt (of_decide_eq_false hc)
  have hvalid : c.toNat < 0xD800 ∨ (0xDFFF < c.toNat ∧ c.toNat < 0x110000) := c.valid
  have hother : ∀ d ∈ [doubleQuote, backslash, '\n', '\r', '\t'], (c == d) = false := by
    have hsmall : ∀ d ∈ [doubleQuote, backslash, '\n', '\r', '\t'], d.toNat < 0x10000 :=
      forall_mem_of_all (by decide)
    refine fun d hd => beq_false_of_ne ?_
    rintro rfl
    exact absurd (hsmall c hd) (by omega)
  refine ⟨(c.toNat - 0x10000) / 0x400,
    backslash :: 'u' :: hexDigits 4 (0xDC00 + (c.toNat - 0x10000) % 0x400), by omega, ?_⟩
  rw [inlineChar, hother _ (by decide), hother _ (by decide), hother _ (by decide),
    hother _ (by decide), hother _ (by decide), if_neg (by decide), if_neg (by decide),
    if_neg (by decide), if_neg (by decide), if_neg (by omega), if_neg (by omega),
    if_neg (by simp; omega), units, if_neg (by omega)]
  simp

/-- A character beyond the basic plane stops the reader. -/
lemma basicText_flatMap_of_not_isBasic {cs : List Char} (h : ∃ c ∈ cs, isBasic c = false)
    (rest : List Char) : basicText (cs.flatMap inlineChar ++ rest) = .error .notCharacter := by
  induction cs with
  | nil =>
      obtain ⟨c, hc, -⟩ := h
      exact absurd hc List.not_mem_nil
  | cons c cs ih =>
      rw [List.flatMap_cons, List.append_assoc]
      by_cases hc : isBasic c = true
      · have hothers : ∃ d ∈ cs, isBasic d = false := by
          obtain ⟨d, hd, hbeyond⟩ := h
          rcases List.mem_cons.mp hd with rfl | hd
          · rw [hc] at hbeyond
            cases hbeyond
          · exact ⟨d, hd, hbeyond⟩
        have hread := (spells_inlineChar hc .nil).basicText_append (cs.flatMap inlineChar ++ rest)
        rw [List.append_nil, ih hothers] at hread
        exact hread
      · obtain ⟨n, r, hn, heq⟩ := exists_inlineChar_eq (Bool.eq_false_iff.mpr hc)
        rw [heq, List.cons_append, List.append_assoc]
        exact basicText_of_escape_error (escape_pair hn _)

lemma spells_flatMap_inlineChar {cs : List Char} (h : ∀ c ∈ cs, isBasic c = true) :
    Spells (cs.flatMap inlineChar) cs := by
  induction cs with
  | nil => exact .nil
  | cons c cs ih =>
      obtain ⟨hc, hcs⟩ := List.forall_mem_cons.mp h
      exact spells_inlineChar hc (ih hcs)

lemma spells_of_isPlain {cs : List Char} (h : ∀ c ∈ cs, isPlain c = true) : Spells cs cs := by
  induction cs with
  | nil => exact .nil
  | cons c cs ih =>
      obtain ⟨hc, hcs⟩ := List.forall_mem_cons.mp h
      exact .plain hc (ih hcs)

/-! ### Lists -/

/-- The characters of texts with commas between them. -/
def joined (texts : List String) : List Char := (", ".intercalate texts).toList

lemma joined_cons_cons (text other : String) (texts : List String) :
    joined (text :: other :: texts) = text.toList ++ ',' :: ' ' :: joined (other :: texts) := by
  rw [joined, String.intercalate_cons_cons, String.toList_append, String.toList_append,
    List.append_assoc]
  rfl

lemma joined_singleton (text : String) : joined [text] = text.toList := by
  rw [joined, String.intercalate_singleton]

lemma exists_joined_cons (text : String) (texts : List String) :
    ∃ tail, joined (text :: texts) = text.toList ++ tail := by
  cases texts with
  | nil => exact ⟨[], by rw [joined_singleton, List.append_nil]⟩
  | cons other texts => exact ⟨_, joined_cons_cons text other texts⟩

/-- What a value begins with is not passed over. -/
lemma skipFiller_of_opensValue {c : Char} (h : opensValue c = true) (r : List Char) :
    skipFiller false (c :: r) = .ok (c :: r) := by
  simp only [opensValue, Bool.and_eq_true, bne_iff_ne, Bool.not_eq_true'] at h
  rw [skipFiller, if_neg (by simp [h]), if_neg (by simp [h])]

/-- A blank in front of an item is passed over. -/
lemma items_space (depth : Nat) (cs : List Char) : items (depth + 1) (' ' :: cs) =
    items (depth + 1) cs := by
  have hskip : skipFiller false (' ' :: cs) = skipFiller false cs := rfl
  rw [items, items, hskip]

/-- What separates the items of a list, or ends it. -/
lemma ends_of_mem {c : Char} (h : c ∈ [',', ']', ' ', '\n']) (rest : List Char) :
    Ends (c :: rest) := by
  rintro d ⟨⟩
  exact h

/-- The first item of a list, with the bracket that ends it or a comma behind it. -/
lemma items_of_readsBack {v : Value} {text : String} (h : ReadsBack v text) {depth : Nat}
    (hdepth : 2 * text.toList.length < depth) (rest : List Char) :
    items (depth + 1) (text.toList ++ ']' :: rest) = .ok ([v], rest) ∧
      items (depth + 1) (text.toList ++ ',' :: rest) =
        (items depth rest).map fun (vs, r) => (v :: vs, r) := by
  obtain ⟨c, r, htext, hopens⟩ := h.opens
  have hskip : ∀ tail, skipFiller false (text.toList ++ tail) = .ok (text.toList ++ tail) := by
    intro tail
    rw [htext, List.cons_append, skipFiller_of_opensValue hopens]
  have hbracket : ∀ tail other, text.toList ++ tail ≠ ']' :: other := by
    intro tail other heq
    rw [htext, List.cons_append] at heq
    rw [(List.cons.inj heq).1] at hopens
    exact absurd hopens (by decide)
  constructor
  · rw [items, hskip]
    dsimp only [bind, Except.bind]
    split
    · next heq => exact absurd heq (hbracket _ _)
    · rw [h.reads depth _ hdepth (ends_of_mem (by decide) _)]
      rfl
  · rw [items, hskip]
    dsimp only [bind, Except.bind]
    split
    · next heq => exact absurd heq (hbracket _ _)
    · rw [h.reads depth _ hdepth (ends_of_mem (by decide) _)]
      have hcomma : skipFiller false (',' :: rest) = .ok (',' :: rest) := rfl
      simp only [hcomma]
      cases items depth rest <;> rfl

/-- The items of a list are read up to its bracket. -/
lemma items_joined {vs : List Value} {texts : List String} (h : List.Forall₂ ReadsBack vs texts)
    {depth : Nat} (hdepth : 2 * (joined texts).length + 1 < depth) (rest : List Char) :
    items depth (joined texts ++ ']' :: rest) = .ok (vs, rest) := by
  induction h generalizing depth with
  | nil =>
      obtain ⟨depth, rfl⟩ : ∃ k, depth = k + 1 := ⟨depth - 1, by omega⟩
      rfl
  | @cons v text vs texts hfirst hothers ih =>
      obtain ⟨depth, rfl⟩ : ∃ k, depth = k + 2 := ⟨depth - 2, by omega⟩
      cases hothers with
      | nil =>
          rw [joined_singleton] at hdepth ⊢
          exact (items_of_readsBack hfirst (by omega) rest).1
      | cons _ _ =>
          rw [joined_cons_cons, List.length_append, List.length_cons, List.length_cons] at hdepth
          rw [joined_cons_cons, List.append_assoc, List.cons_append, List.cons_append,
            (items_of_readsBack hfirst (by omega) _).2, items_space, ih (by omega)]
          rfl

lemma not_mem_joined {c : Char} {texts : List String} (hc : c ∉ [',', ' '])
    (h : ∀ text ∈ texts, c ∉ text.toList) : c ∉ joined texts := by
  induction texts with
  | nil => exact List.not_mem_nil
  | cons text texts ih =>
      obtain ⟨htext, htexts⟩ := List.forall_mem_cons.mp h
      cases texts with
      | nil => rwa [joined_singleton]
      | cons other texts =>
          rw [joined_cons_cons, List.mem_append, not_or]
          have hseparator : c ≠ ',' ∧ c ≠ ' ' := by simpa using hc
          refine ⟨htext, fun hmem => ?_⟩
          rcases List.mem_cons.mp hmem with hcomma | hmem
          · exact hseparator.1 hcomma
          · exact (List.mem_cons.mp hmem).elim hseparator.2 (ih htexts)

/-- The characters of a list. -/
lemma toList_listText (texts : List String) :
    ("[" ++ ", ".intercalate texts ++ "]").toList = '[' :: (joined texts ++ [']']) := by
  rw [String.toList_append, String.toList_append]
  rfl

/-- A list is read back if its items are. -/
lemma readsBack_list {vs : List Value} {texts : List String} (h : List.Forall₂ ReadsBack vs texts) :
    ReadsBack (.list vs) ("[" ++ ", ".intercalate texts ++ "]") := by
  have htext := toList_listText texts
  refine ⟨⟨_, _, htext, by decide⟩, ?_, fun depth rest hdepth _ => ?_⟩
  · have hjoined : '\r' ∉ joined texts := by
      refine not_mem_joined (by decide) fun text htext => ?_
      obtain ⟨v, -, hv⟩ := Listwise.exists_of_mem_right h htext
      exact hv.unreturned
    rw [htext]
    simpa using hjoined
  · rw [htext, List.length_cons, List.length_append] at hdepth
    obtain ⟨depth, rfl⟩ : ∃ k, depth = k + 1 := ⟨depth - 1, by omega⟩
    rw [htext, List.cons_append, List.append_assoc, List.singleton_append, value,
      if_neg (by decide), if_pos (by decide), items_joined h (by omega)]
    rfl

/-! ### Inline forms -/

/-- The values whose inline form keeps them: truth values, integers, texts of printable ASCII, and
lists of those. -/
inductive Legible : Value → Prop where
  | boolean (b : Bool) : Legible (.boolean b)
  | integer (n : Int) : Legible (.integer n)
  | text {s : String} (ascii : s.toList.all isPrintableAscii = true) : Legible (.text s)
  | list {vs : List Value} (items : ∀ v ∈ vs, Legible v) : Legible (.list vs)

lemma forall₂_of_inlineAll {vs : List Value} {texts : List String} (h : inlineAll vs = .ok texts) :
    List.Forall₂ (fun v text => inline v = .ok text) vs texts := by
  induction vs generalizing texts with
  | nil =>
      rw [inlineAll] at h
      cases h
      exact .nil
  | cons v vs ih =>
      rw [inlineAll] at h
      obtain ⟨text, htext, h⟩ := bind_eq_ok.mp h
      obtain ⟨others, hothers, h⟩ := bind_eq_ok.mp h
      cases h
      exact .cons htext (ih hothers)

/-- The inline form of a text of basic characters is read back as the text. -/
lemma readsBack_inlineText {s : String} (h : s.toList.all isBasic = true) :
    ReadsBack (.text s) (inlineText s) := by
  have hread := (spells_flatMap_inlineChar (List.all_eq_true.mp h)).readsBack
  rwa [String.ofList_toList] at hread

/-- A text of characters that stand for themselves is read back between double quotes. -/
lemma readsBack_quoted {s : String} (h : isPlainText s = true) :
    ReadsBack (.text s) ("\"" ++ s ++ "\"") := by
  have hquoted : "\"" ++ s ++ "\"" = String.ofList (doubleQuote :: s.toList ++ [doubleQuote]) := by
    rw [← String.toList_inj, String.toList_ofList, String.toList_append, String.toList_append]
    rfl
  rw [hquoted]
  have hread := (spells_of_isPlain (List.all_eq_true.mp h)).readsBack
  rwa [String.ofList_toList] at hread

/-- The inline form of a value is read back as the value. -/
lemma Legible.readsBack {v : Value} (h : Legible v) {text : String} (htext : inline v = .ok text) :
    ReadsBack v text := by
  induction h generalizing text with
  | boolean b =>
      rw [inline] at htext
      cases htext
      exact readsBack_boolean b
  | integer n =>
      rw [inline] at htext
      exact readsBack_integer (mapError_eq_ok.mp htext)
  | text hascii =>
      rw [inline] at htext
      cases htext
      refine readsBack_inlineText (List.all_eq_true.mpr fun c hc => ?_)
      exact isBasic_of_isPrintableAscii (List.all_eq_true.mp hascii c hc)
  | @list vs _ ih =>
      rw [inline] at htext
      obtain ⟨texts, htexts, htext⟩ := bind_eq_ok.mp htext
      cases htext
      exact readsBack_list (Listwise.imp_of_mem (forall₂_of_inlineAll htexts) fun v hv _ => ih v hv)

end AbiBridge.Toml
