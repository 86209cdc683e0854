import AbiBridge.Proofs.Boundary.Spelling
import AbiBridge.Toml.Inline
import AbiBridge.Toml.Reader

/-!
Values that are read back.

A text is read back as a value if the reader gives the value wherever one can end behind the text,
however the reading goes on. The digits of an integer are no date and no time, since neither a
hyphen nor a colon follows them, and no other base, since there is no zero in front.

* `Ends`: what may stand behind a value;
* `ReadsBack`: a text that is read back as a value;
* `readsBack_integer`, `readsBack_boolean`: integers and truth values are read back.
-/

namespace AbiBridge.Toml

open Outcome Text

/-- What holds of each of a few characters, found by trying them. -/
lemma forall_mem_of_all {p : Char → Prop} [DecidablePred p] {cs : List Char}
    (h : cs.all (fun c => decide (p c)) = true) : ∀ c ∈ cs, p c :=
  fun c hc => of_decide_eq_true (List.all_eq_true.mp h c hc)

/-! ### What follows a value -/

/-- What stands behind a value: the rest of a line, of a list or of a table on one line. -/
def Ends (rest : List Char) : Prop := ∀ c ∈ rest.head?, c ∈ [',', ']', ' ', '\n']

/-- Whether a value may begin with a character, seen from the front of a line or of a list. -/
def opensValue (c : Char) : Bool := !isFiller c && c != '#' && c != ']'

/-- A text that is read as a value. -/
structure ReadsBack (v : Value) (text : String) : Prop where
  opens : ∃ c r, text.toList = c :: r ∧ opensValue c = true
  /-- No line feed behind the text or in it belongs to a carriage return. -/
  unreturned : '\r' ∉ text.toList
  /-- Wherever an end follows the text it is read as the value, given a depth that its length allows
  for. -/
  reads : ∀ depth rest, 2 * text.toList.length < depth → Ends rest →
    value depth (text.toList ++ rest) = .ok (v, rest)

/-! ### Integers -/

/-- The digits of a number without zeros in front. -/
structure IsDecimal (ds : List Char) : Prop where
  nonempty : ds ≠ []
  digits : ∀ d ∈ ds, d.isDigit = true
  canonical : ds.head? = some '0' → ds = ['0']

lemma IsDecimal.exists_cons {ds : List Char} (h : IsDecimal ds) :
    ∃ d r, ds = d :: r ∧ d.isDigit = true := by
  obtain ⟨d, r, rfl⟩ := List.exists_cons_of_ne_nil h.nonempty
  exact ⟨d, r, rfl, h.digits d List.mem_cons_self⟩

lemma return_notMem_of_digits {ds : List Char} (h : ∀ d ∈ ds, d.isDigit = true) : '\r' ∉ ds :=
  fun hmem => absurd (h _ hmem) (by decide)

lemma isDecimal_toDigits (n : Nat) : IsDecimal (Nat.toDigits 10 n) where
  nonempty := Nat.toDigits_ne_nil
  digits := fun _ hd => Nat.isDigit_of_mem_toDigits (by decide) (by decide) hd
  canonical := by
    induction n using Nat.strongRecOn with
    | ind n ih =>
        intro hhead
        by_cases hsmall : n < 10
        · rw [Nat.toDigits_of_lt_base hsmall] at hhead ⊢
          rw [Option.some.inj hhead]
        · -- the digits in front of the last one would be those of zero
          rw [Nat.toDigits_of_base_le (by decide) (by omega), List.head?_append_of_ne_nil _
            Nat.toDigits_ne_nil] at hhead
          have hfront := ih (n / 10) (by omega) hhead
          have hzero := congrArg (Nat.ofDigitChars 10 · 0) hfront
          rw [Nat.ofDigitChars_ten_toDigits] at hzero
          have hzero : n / 10 = 0 := hzero
          omega

/-- A decimal digit has its own value. -/
lemma hexValue?_of_isDigit {c : Char} (h : c.isDigit = true) :
    hexValue? c = some (c.toNat - '0'.toNat) := by
  obtain ⟨hlow, hhigh⟩ := Char.isDigit_iff_toNat.mp h
  have hlow : '0' ≤ c := hlow
  have hhigh : c ≤ '9' := hhigh
  rw [hexValue?, if_pos (by simp [hlow, hhigh])]
  rfl

/-- The digits of a number are read as it. -/
lemma ofDigits_toDigits (n : Nat) : ofDigits 10 (Nat.toDigits 10 n) = n := by
  conv_rhs => rw [← Nat.ofDigitChars_ten_toDigits (n := n), Nat.ofDigitChars_eq_foldl]
  rw [ofDigits]
  refine List.foldl_ext _ _ _ fun m d hd => ?_
  rw [hexValue?_of_isDigit ((isDecimal_toDigits n).digits d hd), Nat.mul_comm]
  rfl

lemma isDigit_of_twoDigits? {a b : Char} {n : Nat} (h : twoDigits? a b = some n) :
    a.isDigit = true ∧ b.isDigit = true := by
  rw [twoDigits?] at h
  split at h
  · next hdigits => exact Bool.and_eq_true_iff.mp hdigits
  · cases h

/-- A date begins with digits and a hyphen behind them. -/
lemma dropWhile_isDigit_of_day? {cs : List Char} {x : Day × List Char} (h : day? cs = some x) :
    ∃ d r, cs.head? = some d ∧ d.isDigit = true ∧ cs.dropWhile Char.isDigit = '-' :: r := by
  rw [day?.eq_def] at h
  split at h
  · simp only [Option.bind_eq_bind, Option.bind_eq_some_iff] at h
    obtain ⟨_, hcentury, _, hyear, -⟩ := h
    obtain ⟨ha, hb⟩ := isDigit_of_twoDigits? hcentury
    obtain ⟨hc, hd⟩ := isDigit_of_twoDigits? hyear
    rw [List.dropWhile_cons_of_pos ha, List.dropWhile_cons_of_pos hb, List.dropWhile_cons_of_pos hc,
      List.dropWhile_cons_of_pos hd]
    exact ⟨_, _, rfl, ha, rfl⟩
  · cases h

/-- A time begins with digits and a colon behind them. -/
lemma dropWhile_isDigit_of_clock? {cs : List Char} {x : Clock × List Char}
    (h : clock? cs = some x) :
    ∃ d r, cs.head? = some d ∧ d.isDigit = true ∧ cs.dropWhile Char.isDigit = ':' :: r := by
  simp only [clock?, Option.bind_eq_bind, Option.bind_eq_some_iff] at h
  obtain ⟨y, hhour, -⟩ := h
  rw [hourMinute?.eq_def] at hhour
  split at hhour
  · simp only [Option.bind_eq_bind, Option.bind_eq_some_iff] at hhour
    obtain ⟨_, hhour, -⟩ := hhour
    obtain ⟨ha, hb⟩ := isDigit_of_twoDigits? hhour
    rw [List.dropWhile_cons_of_pos ha, List.dropWhile_cons_of_pos hb]
    exact ⟨_, _, rfl, ha, rfl⟩
  · cases hhour

/-- What begins with no digit, or goes on behind its digits with neither a hyphen nor a colon, is
neither a date nor a time. -/
lemma moment?_eq_none {cs : List Char} (h : ∀ d ∈ cs.head?, d.isDigit = true →
    ∀ c ∈ (cs.dropWhile Char.isDigit).head?, c ≠ '-' ∧ c ≠ ':') : moment? cs = none := by
  have hday : day? cs = none := by
    by_contra hsome
    obtain ⟨x, hx⟩ := Option.ne_none_iff_exists'.mp hsome
    obtain ⟨d, r, hd, hdigit, hr⟩ := dropWhile_isDigit_of_day? hx
    exact (h d hd hdigit '-' (by rw [hr]; rfl)).1 rfl
  have hclock : clock? cs = none := by
    by_contra hsome
    obtain ⟨x, hx⟩ := Option.ne_none_iff_exists'.mp hsome
    obtain ⟨d, r, hd, hdigit, hr⟩ := dropWhile_isDigit_of_clock? hx
    exact (h d hd hdigit ':' (by rw [hr]; rfl)).2 rfl
  rw [moment?, hday, hclock]
  rfl

/-- What stands behind the whole part of a decimal: an end, a point or an exponent. -/
def EndsDigits (rest : List Char) : Prop := ∀ c ∈ rest.head?, c ∈ ['.', 'e', ',', ']', ' ', '\n']

lemma Ends.endsDigits {rest : List Char} (h : Ends rest) : EndsDigits rest :=
  fun c hc => List.mem_cons_of_mem _ (List.mem_cons_of_mem _ (h c hc))

section Digits

variable {rest : List Char} (hrest : EndsDigits rest)

include hrest

/-- Behind the digits of a decimal there is none more, nothing that goes on with one, and nothing
that belongs to a date, a time or another base. -/
lemma EndsDigits.head_spec : ∀ c ∈ rest.head?, c.isDigit = false ∧
    c ∉ ['_', '-', ':', 'x', 'o', 'b'] := by
  have hends : ∀ c ∈ ['.', 'e', ',', ']', ' ', '\n'], c.isDigit = false ∧
      c ∉ ['_', '-', ':', 'x', 'o', 'b'] := forall_mem_of_all (by decide)
  exact fun c hc => hends c (hrest c hc)

/-- A run of digits ends where they do. -/
lemma digitRun_append {ds : List Char} (hds : ∀ d ∈ ds, d.isDigit = true) :
    digitRun Char.isDigit (ds ++ rest) = (ds, rest) := by
  induction ds with
  | nil =>
      cases rest with
      | nil => rfl
      | cons c r =>
          obtain ⟨hdigit, hother⟩ := hrest.head_spec c rfl
          rw [List.nil_append, digitRun, if_neg (by rw [hdigit]; decide)]
          exact fun _ _ h _ => hother (by rw [h]; decide)
  | cons d ds ih =>
      obtain ⟨hd, hds⟩ := List.forall_mem_cons.mp hds
      have hne : d ≠ '_' := by
        rintro rfl
        exact absurd hd (by decide)
      rw [List.cons_append, digitRun, if_pos hd, ih hds]
      exact fun _ _ h _ => hne h

/-- The whole part of a decimal. -/
lemma whole?_append {ds : List Char} (hds : IsDecimal ds) :
    whole? (ds ++ rest) = some (ds, rest) := by
  obtain ⟨d, ds', rfl, hdigit⟩ := hds.exists_cons
  rw [List.cons_append, whole?]
  by_cases hzero : d = '0'
  · have hone := hds.canonical (by rw [hzero]; rfl)
    rw [List.cons.injEq] at hone
    rw [hone.1, hone.2]
    rfl
  · rw [if_neg (by simpa using hzero), digits?, if_pos hdigit, ← List.cons_append,
      digitRun_append hrest hds.digits]

/-- Digits are neither a date nor a time. -/
lemma moment?_append {ds : List Char} (hds : ∀ d ∈ ds, d.isDigit = true) :
    moment? (ds ++ rest) = none := by
  obtain ⟨-, hdrop⟩ := Token.takeWhile_append_eq hds fun c hc => (hrest.head_spec c hc).1
  refine moment?_eq_none fun d _ _ c hc => ?_
  rw [hdrop] at hc
  obtain ⟨-, hother⟩ := hrest.head_spec c hc
  exact ⟨fun h => hother (by rw [h]; decide), fun h => hother (by rw [h]; decide)⟩

/-- No base is marked in front of the digits of a decimal. -/
lemma marked?_append {ds : List Char} (hds : IsDecimal ds) : marked? (ds ++ rest) = none := by
  have hzero : ∀ c r, ds ++ rest = '0' :: c :: r → c ∉ ['_', '-', ':', 'x', 'o', 'b'] := by
    intro c r heq
    obtain ⟨d, ds', rfl⟩ := List.exists_cons_of_ne_nil hds.nonempty
    obtain ⟨rfl, htail⟩ := List.cons.inj heq
    have hone := (List.cons.inj (hds.canonical rfl)).2
    have htail : ds' ++ rest = c :: r := htail
    rw [hone, List.nil_append] at htail
    exact (hrest.head_spec c (by rw [htail]; rfl)).2
  rw [marked?.eq_def]
  split
  · next heq => exact absurd (by decide) (hzero _ _ heq)
  · next heq => exact absurd (by decide) (hzero _ _ heq)
  · next heq => exact absurd (by decide) (hzero _ _ heq)
  · rfl

end Digits

section Endings

variable {rest : List Char} (hrest : Ends rest)

include hrest

/-- No digit stands at an end, and nothing that belongs to a number, a date or a time. -/
lemma Ends.head_cases {c : Char} {r : List Char} (h : rest = c :: r) :
    c = ',' ∨ c = ']' ∨ c = ' ' ∨ c = '\n' := by
  have hc := hrest c (by rw [h]; rfl)
  simpa using hc

/-- Neither a fraction nor an exponent stands at an end. -/
lemma fraction_exponent_ends : fraction rest = (none, rest) ∧ exponent rest = (none, rest) := by
  cases rest with
  | nil => exact ⟨rfl, rfl⟩
  | cons c r =>
      rcases hrest.head_cases rfl with rfl | rfl | rfl | rfl <;> exact ⟨rfl, rfl⟩

/-- A decimal integer up to the limit of digits. -/
lemma decimal_append {ds : List Char} (hds : IsDecimal ds) (hlimit : ds.length ≤ digitLimit)
    (negative : Bool) : decimal negative (ds ++ rest) =
      .ok (.integer (if negative then -(ofDigits 10 ds : Int) else ofDigits 10 ds), rest) := by
  obtain ⟨hfraction, hexponent⟩ := fraction_exponent_ends hrest
  rw [decimal, whole?_append hrest.endsDigits hds]
  simp only [hfraction, hexponent, Option.isNone_none, Bool.and_self, if_true]
  rw [decimalInteger, if_neg (Nat.not_lt.mpr hlimit)]
  rfl

end Endings

/-- What begins with a digit has no sign and is no word. -/
lemma readSign_special?_of_isDigit {c : Char} (hc : c.isDigit = true) (r : List Char)
    (negative : Bool) :
    Binary64.readSign (c :: r) = (false, c :: r) ∧ special? negative (c :: r) = none := by
  have hother : ∀ d ∈ ['-', '+', 'i', 'n'], c ≠ d := by
    have hsigns : ∀ d ∈ ['-', '+', 'i', 'n'], d.isDigit = false := forall_mem_of_all (by decide)
    rintro d hd rfl
    exact absurd hc (by rw [hsigns c hd]; decide)
  constructor
  · rw [Binary64.readSign.eq_def]
    split
    · next heq => exact absurd (List.cons.inj heq).1 (hother _ (by decide))
    · next heq => exact absurd (List.cons.inj heq).1 (hother _ (by decide))
    · rfl
  · rw [special?.eq_def]
    split
    · next heq => exact absurd (List.cons.inj heq).1 (hother _ (by decide))
    · next heq => exact absurd (List.cons.inj heq).1 (hother _ (by decide))
    · rfl

/-- A value that begins with a digit or a minus, and is no date and no time, is a number. -/
lemma value_of_number {depth : Nat} {c : Char} {r : List Char} (hc : c.isDigit = true ∨ c = '-')
    (hmoment : moment? (c :: r) = none) : value (depth + 1) (c :: r) = number (c :: r) := by
  have hother : ∀ d ∈ [doubleQuote, apostrophe, '[', '\x7b', 't', 'f'], c ≠ d := by
    have hsigns : ∀ d ∈ [doubleQuote, apostrophe, '[', '\x7b', 't', 'f'],
        ¬(d.isDigit = true ∨ d = '-') := forall_mem_of_all (by decide)
    rintro d hd rfl
    exact hsigns c hd hc
  have hquote : ¬isQuote c = true := by
    rw [isQuote, Bool.or_eq_true, beq_iff_eq, beq_iff_eq, not_or]
    exact ⟨hother _ (by decide), hother _ (by decide)⟩
  have hlist : ¬(c == '[') = true := mt beq_iff_eq.mp (hother _ (by decide))
  have htable : ¬(c == '\x7b') = true := mt beq_iff_eq.mp (hother _ (by decide))
  rw [value, if_neg hquote, if_neg hlist, if_neg htable]
  split
  · next heq => exact absurd (List.cons.inj heq).1 (hother _ (by decide))
  · next heq => exact absurd (List.cons.inj heq).1 (hother _ (by decide))
  · rw [hmoment]

/-- A minus where there is one. -/
def minus (negative : Bool) : List Char := if negative then ['-'] else []

/-- A decimal behind its sign is read as one. -/
lemma value_signed {ds tail : List Char} (hds : IsDecimal ds) (htail : EndsDigits tail)
    (depth : ℕ) (negative : Bool) :
    value (depth + 1) (minus negative ++ (ds ++ tail)) = decimal negative (ds ++ tail) := by
  obtain ⟨d, r, hcons, hdigit⟩ := hds.exists_cons
  have hread := readSign_special?_of_isDigit hdigit (r ++ tail)
  cases negative with
  | true =>
      have hmoment : moment? ('-' :: (ds ++ tail)) = none :=
        moment?_eq_none fun c hc hminus => by cases hc; cases hminus
      have hmarked : marked? ('-' :: (ds ++ tail)) = none := rfl
      rw [minus, if_pos rfl, List.singleton_append, value_of_number (Or.inr rfl) hmoment, number,
        hmarked]
      simp only [Binary64.readSign]
      rw [hcons, List.cons_append, (hread true).2]
  | false =>
      have hmoment := moment?_append htail hds.digits
      have hmarked := marked?_append htail hds
      rw [minus, if_neg Bool.false_ne_true, List.nil_append]
      rw [hcons, List.cons_append] at hmoment hmarked ⊢
      rw [value_of_number (Or.inl hdigit) hmoment, number, hmarked]
      simp only [(hread false).1, (hread false).2]

lemma opensValue_of_isDigit {c : Char} (h : c.isDigit = true) : opensValue c = true := by
  have hsigns : ∀ d ∈ [' ', '\t', '\n', '#', ']'], d.isDigit = false :=
    forall_mem_of_all (by decide)
  have hother : ∀ d ∈ [' ', '\t', '\n', '#', ']'], c ≠ d := by
    rintro d hd rfl
    exact absurd h (by rw [hsigns c hd]; decide)
  simp [opensValue, isFiller, isSpace, hother]

/-- A text is read back as what its decimal gives behind the sign. -/
lemma readsBack_signed {v : Value} {text : String} {negative : Bool} {ds tail : List Char}
    (htext : text.toList = minus negative ++ (ds ++ tail)) (hds : IsDecimal ds)
    (htail : '\r' ∉ tail) (hends : ∀ rest, Ends rest → EndsDigits (tail ++ rest))
    (hread : ∀ rest, Ends rest → decimal negative (ds ++ (tail ++ rest)) = .ok (v, rest)) :
    ReadsBack v text := by
  refine ⟨?_, ?_, fun depth rest hdepth hrest => ?_⟩
  · obtain ⟨d, r, hcons, hdigit⟩ := hds.exists_cons
    rw [htext, hcons]
    cases negative
    · exact ⟨_, _, rfl, opensValue_of_isDigit hdigit⟩
    · exact ⟨_, _, rfl, rfl⟩
  · have hminus : '\r' ∉ minus negative := by cases negative <;> decide
    rw [htext, List.mem_append, List.mem_append, not_or, not_or]
    exact ⟨hminus, return_notMem_of_digits hds.digits, htail⟩
  · obtain ⟨depth, rfl⟩ : ∃ k, depth = k + 1 := ⟨depth - 1, by omega⟩
    rw [htext, List.append_assoc, List.append_assoc, value_signed hds (hends rest hrest),
      hread rest hrest]

/-- The digits of an integer stand behind a minus if it is negative. -/
lemma toList_toString (n : Int) :
    (toString n).toList = minus (decide (n < 0)) ++ Nat.toDigits 10 n.natAbs := by
  rw [Int.toString_eq_repr, Int.repr_eq_if]
  by_cases hn : n < 0
  · have habs : (-n).toNat = n.natAbs := by omega
    rw [if_neg (by omega), minus, if_pos (decide_eq_true hn), habs, String.toList_append,
      Nat.toList_repr]
    rfl
  · have habs : n.toNat = n.natAbs := by omega
    rw [if_pos (by omega), minus, if_neg (by simpa using hn), habs, Nat.toList_repr]
    rfl

/-- The text of an integer is read back as it. -/
lemma readsBack_integer {n : Int} {s : String} (h : integerText n = .ok s) :
    ReadsBack (.integer n) s := by
  obtain ⟨hlimit, rfl⟩ := integerText_eq_ok_iff.mp h
  have hds := isDecimal_toDigits n.natAbs
  have hlength : (Nat.toDigits 10 n.natAbs).length ≤ digitLimit := by
    rwa [Nat.toString_eq_repr, ← String.length_toList, Nat.toList_repr] at hlimit
  have htext : (toString n).toList =
      minus (decide (n < 0)) ++ (Nat.toDigits 10 n.natAbs ++ []) := by
    rw [toList_toString, List.append_nil]
  refine readsBack_signed htext hds List.not_mem_nil (fun _ hrest => hrest.endsDigits)
    fun rest hrest => ?_
  rw [List.nil_append, decimal_append hrest hds hlength, ofDigits_toDigits]
  by_cases hn : n < 0
  · have hvalue : -(n.natAbs : Int) = n := by omega
    rw [if_pos (decide_eq_true hn), hvalue]
  · have hvalue : (n.natAbs : Int) = n := by omega
    rw [if_neg (by simpa using hn), hvalue]

lemma readsBack_boolean (b : Bool) : ReadsBack (.boolean b) (if b then "true" else "false") := by
  refine ⟨by cases b <;> exact ⟨_, _, rfl, rfl⟩, by cases b <;> decide,
    fun depth rest hdepth _ => ?_⟩
  obtain ⟨depth, rfl⟩ : ∃ k, depth = k + 1 := ⟨depth - 1, by omega⟩
  cases b <;> rfl

end AbiBridge.Toml
