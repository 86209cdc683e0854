import AbiBridge.Toml.Inline
import AbiBridge.Toml.Text
import Mathlib.Algebra.Group.Nat.Defs
import Mathlib.Tactic.Lemma

/-!
Escapes of characters and what they are read as.

A character of the basic plane is a unit of sixteen bits, and the four hexadecimal digits of its
escape are read as that unit. A character beyond is written as two units of the range that is kept
free for such pairs. The reader wants each escape to be a character, so that the first unit stops
it.

* `isBasic`: the characters of the basic plane;
* `IsEscape`: what may stand behind a backslash for a character;
* `isEscape_unit`: the digits of a basic character are an escape of it;
* `escape_pair`: those of a pair are none.
-/

namespace AbiBridge.Toml

open Text

/-- Whether a character is one of the basic plane. -/
def isBasic (c : Char) : Bool := c.toNat < 0x10000

/-! ### Hexadecimal digits -/

lemma hexValue?_hexDigit {n : Nat} (h : n < 16) : hexValue? (hexDigit n) = some n := by
  have hall : ∀ k : Fin 16, hexValue? (hexDigit k) = some k.val := by decide
  exact hall ⟨n, h⟩

lemma ofHexDigits?_hexDigits {width n : Nat} (h : n < 16 ^ width) :
    ofHexDigits? (hexDigits width n) = some n := by
  induction width generalizing n with
  | zero =>
      obtain rfl : n = 0 := by simpa using h
      rfl
  | succ width ih =>
      have hfront := ih (n := n / 16) (by rw [Nat.pow_succ] at h; omega)
      have hlast := hexValue?_hexDigit (Nat.mod_lt n (by decide : 0 < 16))
      have hvalue : n / 16 * 16 + n % 16 = n := by omega
      rw [ofHexDigits?] at hfront ⊢
      rw [hexDigits, List.foldlM_append, hfront]
      simp only [List.foldlM_cons, List.foldlM_nil, hlast, Option.map_some]
      exact congrArg some hvalue

/-- A number is read from its digits, whatever stands behind them. -/
lemma hexNumber?_append {width n : Nat} (h : n < 16 ^ width) (rest : List Char) :
    hexNumber? width (hexDigits width n ++ rest) = some n := by
  have htake : (hexDigits width n ++ rest).take width = hexDigits width n :=
    List.take_left' (length_hexDigits width n)
  rw [hexNumber?, htake]
  simp only [length_hexDigits, Nat.lt_irrefl, if_false, ofHexDigits?_hexDigits h]

lemma return_notMem_hexDigits (width n : Nat) : '\r' ∉ hexDigits width n := by
  induction width generalizing n with
  | zero => exact List.not_mem_nil
  | succ width ih =>
      have hall : ∀ k : Fin 16, '\r' ≠ hexDigit k := by decide
      rw [hexDigits, List.mem_append, not_or, List.mem_singleton]
      exact ⟨ih _, hall ⟨n % 16, Nat.mod_lt n (by decide)⟩⟩

/-! ### Escapes -/

/-- What may stand behind a backslash for a character. -/
structure IsEscape (code : List Char) (c : Char) : Prop where
  unreturned : '\r' ∉ code
  reads : ∀ rest, escape (code ++ rest) = .ok (c, rest)

lemma scalar?_toNat (c : Char) : scalar? c.toNat = some c := by
  have hvalid : c.toNat < 0xD800 ∨ (0xDFFF < c.toNat ∧ c.toNat < 0x110000) := c.valid
  rw [scalar?, if_pos hvalid, Char.ofNat_toNat]

/-- The digits of a basic character. -/
lemma isEscape_unit {c : Char} (h : isBasic c = true) :
    IsEscape ('u' :: hexDigits 4 c.toNat) c := by
  refine ⟨?_, fun rest => ?_⟩
  · exact List.not_mem_cons_of_ne_of_not_mem (by decide) (return_notMem_hexDigits 4 _)
  · have hunit : c.toNat < 16 ^ 4 := of_decide_eq_true h
    rw [List.cons_append, escape, if_pos (by decide), digitEscape, hexNumber?_append hunit]
    simp only [scalar?_toNat, List.drop_left' (length_hexDigits 4 c.toNat)]

/-- The first unit of a pair is no character. -/
lemma escape_pair {n : Nat} (h : n < 0x400) (rest : List Char) :
    escape ('u' :: hexDigits 4 (0xD800 + n) ++ rest) = .error .notCharacter := by
  have hscalar : scalar? (0xD800 + n) = none := by
    rw [scalar?, if_neg (by omega)]
  rw [List.cons_append, escape, if_pos (by decide), digitEscape,
    hexNumber?_append (by omega : 0xD800 + n < 16 ^ 4)]
  simp only [hscalar]

end AbiBridge.Toml
