import AbiBridge.Number.Binary64
import Mathlib.Algebra.Order.Field.Power
import Mathlib.Data.Int.Log
import Mathlib.Data.Nat.Digits.Defs
import Mathlib.Algebra.Order.Floor.Semifield
import Mathlib.Data.Rat.Floor
import Mathlib.Tactic.FieldSimp
import Mathlib.Tactic.Lemma
import Mathlib.Tactic.Linarith
import Mathlib.Tactic.Positivity

/-!
Which decimals round to a number.

The reals that round to a positive number are those between the middles towards its two neighbours,
with the middles if the significand is even. The neighbour below the least significand of an
exponent has the exponent before it, so on that side the middle is half as far away. A decimal of
that neighbour's exponent is rounded there at first, to a significand that is one bit too long.

* `Binary64.IsCanonical`: the significands and exponents of numbers;
* `Binary64.RoundsTo`: the rationals between the middles;
* `exponentFor_eq`: the exponent at which a quotient is rounded;
* `ofRatio_eq_finite`, `ofDecimal_eq_finite`: a quotient or a decimal between the middles of a
  number is read as the number;
* `isCanonical_of_ofDecimal`: what a decimal is read as has one of those significands and exponents.
-/

namespace AbiBridge

/-! ### Integers -/

/-- Whether a rational rounds to an integer: it is at most half away, and less if the integer is
odd. -/
structure IsNearest (x : ℚ) (n : ℕ) : Prop where
  low : n - 1 / 2 ≤ x
  high : x ≤ n + 1 / 2
  inner : n % 2 = 1 → (n : ℚ) - 1 / 2 < x ∧ x < n + 1 / 2

/-- The rounded quotient, by what it is to be multiplied with. -/
lemma roundDiv_eq {num den n : ℕ} (hlow : 2 * (n * den) ≤ 2 * num + den)
    (hhigh : 2 * num ≤ 2 * (n * den) + den) (hinner : n % 2 = 1 →
      2 * (n * den) < 2 * num + den ∧ 2 * num < 2 * (n * den) + den) (hden : 0 < den) :
    roundDiv num den = n := by
  have hdiv := Nat.div_add_mod num den
  have hmod := Nat.mod_lt num hden
  have hbelow : num / den ≤ n := by
    by_contra hlt
    have hstep : (n + 1) * den ≤ num / den * den := Nat.mul_le_mul_right den (by omega)
    rw [Nat.add_mul, Nat.one_mul, Nat.mul_comm (num / den)] at hstep
    omega
  have habove : n ≤ num / den + 1 := by
    by_contra hlt
    have hstep : (num / den + 2) * den ≤ n * den := Nat.mul_le_mul_right den (by omega)
    rw [Nat.add_mul, Nat.mul_comm (num / den)] at hstep
    omega
  rcases Nat.le_iff_lt_or_eq.mp hbelow with hlt | heq
  · obtain rfl : n = num / den + 1 := by omega
    rw [Nat.add_mul, Nat.one_mul, Nat.mul_comm (num / den)] at hlow hhigh hinner
    simp only [roundDiv]
    split
    · omega
    · split <;> omega
  · rw [← heq, Nat.mul_comm (num / den)] at hlow hhigh hinner
    rw [← heq]
    simp only [roundDiv]
    split
    · rfl
    · split <;> omega

/-- The rounded quotient is the integer that the quotient rounds to. -/
lemma roundDiv_eq_of_isNearest {num den n : ℕ} (hden : 0 < den)
    (h : IsNearest ((num : ℚ) / den) n) : roundDiv num den = n := by
  have hden' : (0 : ℚ) < den := Nat.cast_pos.mpr hden
  have hlow := (le_div_iff₀ hden').mp h.low
  have hhigh := (div_le_iff₀ hden').mp h.high
  refine roundDiv_eq ?_ ?_ (fun hodd => ?_) hden
  · have hcast : (2 : ℚ) * (n * den) ≤ 2 * num + den := by linarith
    exact_mod_cast hcast
  · have hcast : (2 : ℚ) * num ≤ 2 * (n * den) + den := by linarith
    exact_mod_cast hcast
  · have hstrict := h.inner hodd
    have hlow := (lt_div_iff₀ hden').mp hstrict.1
    have hhigh := (div_lt_iff₀ hden').mp hstrict.2
    constructor
    · have hcast : (2 : ℚ) * (n * den) < 2 * num + den := by linarith
      exact_mod_cast hcast
    · have hcast : (2 : ℚ) * num < 2 * (n * den) + den := by linarith
      exact_mod_cast hcast

namespace Binary64

/-! ### The middles -/

lemma two_zpow_add (e : ℤ) (n : ℕ) : (2 : ℚ) ^ (e + n) = 2 ^ n * 2 ^ e := by
  rw [zpow_add₀ two_ne_zero, zpow_natCast, mul_comm]

lemma two_zpow_eq_double (e : ℤ) : (2 : ℚ) ^ e = 2 * 2 ^ (e - 1) := by
  rw [zpow_sub_one₀ two_ne_zero]
  ring

/-- The significands and exponents that numbers have. -/
structure IsCanonical (m : ℕ) (e : ℤ) : Prop where
  significand_lt : m < 2 ^ 53
  minExponent_le : minExponent ≤ e
  le_maxExponent : e ≤ maxExponent
  full : 2 ^ 52 ≤ m ∨ e = minExponent

/-- How far the middle towards the number below is away, in units of the significand. -/
def gapBelow (m : ℕ) (e : ℤ) : ℚ := if m = 2 ^ 52 ∧ minExponent < e then 1 / 4 else 1 / 2

/-- The rationals that round to a positive number. -/
structure RoundsTo (x : ℚ) (m : ℕ) (e : ℤ) : Prop where
  low : (m - gapBelow m e) * 2 ^ e ≤ x
  high : x ≤ (m + 1 / 2) * 2 ^ e
  inner : m % 2 = 1 → (m - gapBelow m e) * 2 ^ e < x ∧ x < (m + 1 / 2) * 2 ^ e

lemma gapBelow_le (m : ℕ) (e : ℤ) : gapBelow m e ≤ 1 / 2 := by
  rw [gapBelow]
  split <;> norm_num

lemma gapBelow_pos (m : ℕ) (e : ℤ) : 0 < gapBelow m e := by
  rw [gapBelow]
  split <;> norm_num

/-- Of an odd significand the middle below is half a unit away. -/
lemma gapBelow_of_odd {m : ℕ} (h : m % 2 = 1) (e : ℤ) : gapBelow m e = 1 / 2 := by
  rw [gapBelow, if_neg]
  rintro ⟨rfl, -⟩
  exact absurd h (by norm_num)

section Middles

variable {x : ℚ} {m : ℕ} {e : ℤ} (h : RoundsTo x m e)

include h

/-- In units of the number's exponent, what rounds to the number rounds to its significand. -/
lemma RoundsTo.isNearest : IsNearest (x / 2 ^ e) m := by
  have hunit : (0 : ℚ) < 2 ^ e := by positivity
  have hgap : (m - 1 / 2 : ℚ) ≤ m - gapBelow m e := by linarith [gapBelow_le m e]
  refine ⟨hgap.trans ((le_div_iff₀ hunit).mpr h.low), (div_le_iff₀ hunit).mpr h.high,
    fun hodd => ?_⟩
  have hinner := h.inner hodd
  rw [gapBelow_of_odd hodd] at hinner
  exact ⟨(lt_div_iff₀ hunit).mpr hinner.1, (div_lt_iff₀ hunit).mpr hinner.2⟩

lemma RoundsTo.half_unit_le (hm : 0 < m) : 2 ^ (e - 1) ≤ x := by
  have hone : (1 : ℚ) ≤ m := Nat.one_le_cast.mpr hm
  have hunit : (0 : ℚ) < 2 ^ e := by positivity
  calc (2 : ℚ) ^ (e - 1) = 1 / 2 * 2 ^ e := by rw [two_zpow_eq_double e]; ring
    _ ≤ (m - gapBelow m e) * 2 ^ e := by
        gcongr
        linarith [gapBelow_le m e]
    _ ≤ x := h.low

lemma RoundsTo.pos (hm : 0 < m) : 0 < x := lt_of_lt_of_le (by positivity) (h.half_unit_le hm)

/-- What rounds to a number is less than the power of two above it. -/
lemma RoundsTo.lt_pow (hm : m < 2 ^ 53) : x < 2 ^ (e + 53) := by
  have hcast : (m : ℚ) + 1 ≤ 2 ^ 53 := by exact_mod_cast hm
  have hunit : (0 : ℚ) < 2 ^ e := by positivity
  calc x ≤ (m + 1 / 2) * 2 ^ e := h.high
    _ < 2 ^ 53 * 2 ^ e := by gcongr; linarith
    _ = 2 ^ (e + 53) := (two_zpow_add e 53).symm

/-- A rational below the least significand of an exponent rounds to that significand only. -/
lemma RoundsTo.eq_pow_of_lt (hfull : 2 ^ 52 ≤ m)
    (hx : x < 2 ^ (e + 52)) : m = 2 ^ 52 := by
  by_contra hne
  have hcast : (2 : ℚ) ^ 52 + 1 ≤ m := by exact_mod_cast Nat.lt_of_le_of_ne hfull (Ne.symm hne)
  have hunit : (0 : ℚ) < 2 ^ e := by positivity
  refine absurd (lt_of_le_of_lt h.low hx) (not_lt.mpr ?_)
  calc (2 : ℚ) ^ (e + 52) = 2 ^ 52 * 2 ^ e := two_zpow_add e 52
    _ ≤ (m - gapBelow m e) * 2 ^ e := by
        gcongr
        linarith [gapBelow_le m e]

end Middles

/-- In units of the exponent before it, a rational below the least significand of an exponent rounds
to twice that significand. -/
lemma RoundsTo.isNearest_pred {x : ℚ} {e : ℤ} (h : RoundsTo x (2 ^ 52) e) (he : minExponent < e)
    (hx : x < 2 ^ (e + 52)) : IsNearest (x / 2 ^ (e - 1)) (2 ^ 53) := by
  have hunit : (0 : ℚ) < 2 ^ (e - 1) := by positivity
  have hhigh : (2 : ℚ) ^ (e + 52) = 2 ^ 53 * 2 ^ (e - 1) := by
    have hnext : e + 52 = e - 1 + 53 := by omega
    rw [hnext]
    exact two_zpow_add (e - 1) 53
  have hlow := h.low
  rw [gapBelow, if_pos ⟨rfl, he⟩, two_zpow_eq_double e] at hlow
  rw [hhigh] at hx
  push_cast at hlow
  refine ⟨?_, ?_, fun hodd => absurd hodd (by norm_num)⟩
  · rw [le_div_iff₀ hunit]
    push_cast
    linarith
  · rw [div_le_iff₀ hunit]
    push_cast
    linarith

/-! ### The exponent -/

/-- A comparison of a power with a quotient, in natural numbers. -/
lemma zpow_le_div_iff {b den : ℕ} (hb : 0 < b) (hden : 0 < den) (num : ℕ) (k : ℤ) :
    (b : ℚ) ^ k ≤ num / den ↔
      if 0 ≤ k then den * b ^ k.toNat ≤ num else den ≤ num * b ^ (-k).toNat := by
  have hden' : (0 : ℚ) < den := Nat.cast_pos.mpr hden
  rw [le_div_iff₀ hden']
  split
  · next hk =>
    obtain ⟨n, rfl⟩ := Int.eq_ofNat_of_zero_le hk
    rw [zpow_natCast, Int.toNat_natCast, mul_comm]
    exact_mod_cast Iff.rfl
  · next hk =>
    obtain ⟨n, hn⟩ := Int.eq_ofNat_of_zero_le (by omega : 0 ≤ -k)
    obtain rfl : k = -n := by omega
    have hpow : (0 : ℚ) < (b : ℚ) ^ n := by positivity
    rw [neg_neg, Int.toNat_natCast, zpow_neg, zpow_natCast, ← div_eq_inv_mul, div_le_iff₀ hpow]
    exact_mod_cast Iff.rfl

/-- A quotient lies between powers of two that are two apart. -/
lemma log_div_mem {num den : ℕ} (hnum : 0 < num) (hden : 0 < den) :
    (num.log2 : ℤ) - den.log2 - 1 ≤ Int.log 2 (num / den : ℚ) ∧
      Int.log 2 (num / den : ℚ) ≤ num.log2 - den.log2 := by
  have hnum' : (0 : ℚ) < num := Nat.cast_pos.mpr hnum
  have hden' : (0 : ℚ) < den := Nat.cast_pos.mpr hden
  have hx : (0 : ℚ) < num / den := by positivity
  have hnumLow : (2 : ℚ) ^ num.log2 ≤ num := by
    exact_mod_cast Nat.log2_self_le (Nat.ne_of_gt hnum)
  have hnumHigh : (num : ℚ) < 2 ^ (num.log2 + 1) := by exact_mod_cast Nat.lt_log2_self
  have hdenLow : (2 : ℚ) ^ den.log2 ≤ den := by
    exact_mod_cast Nat.log2_self_le (Nat.ne_of_gt hden)
  have hdenHigh : (den : ℚ) < 2 ^ (den.log2 + 1) := by exact_mod_cast Nat.lt_log2_self
  constructor
  · refine (Int.zpow_le_iff_le_log (by decide) hx).mp ?_
    have hpow : ((2 : ℕ) : ℚ) ^ ((num.log2 : ℤ) - den.log2 - 1) =
        2 ^ num.log2 / 2 ^ (den.log2 + 1) := by
      rw [Nat.cast_ofNat, sub_sub, zpow_sub₀ two_ne_zero, zpow_natCast]
      exact_mod_cast rfl
    rw [hpow, div_le_div_iff₀ (by positivity) hden']
    gcongr
  · refine Int.lt_add_one_iff.mp ((Int.lt_zpow_iff_log_lt (by decide) hx).mp ?_)
    have hpow : ((2 : ℕ) : ℚ) ^ ((num.log2 : ℤ) - den.log2 + 1) =
        2 ^ (num.log2 + 1) / 2 ^ den.log2 := by
      rw [Nat.cast_ofNat, sub_add_eq_add_sub, zpow_sub₀ two_ne_zero, zpow_natCast]
      exact_mod_cast rfl
    rw [hpow, div_lt_div_iff₀ hden' (by positivity)]
    exact mul_lt_mul hnumHigh hdenLow (by positivity) (by positivity)

/-- The exponent at which a quotient is rounded has fifty-three bits in front of it, or is the least
one. -/
lemma exponentFor_eq {num den : ℕ} (hnum : 0 < num) (hden : 0 < den) :
    exponentFor num den = max (Int.log 2 (num / den : ℚ) - 52) minExponent := by
  have hx : (0 : ℚ) < num / den := div_pos (Nat.cast_pos.mpr hnum) (Nat.cast_pos.mpr hden)
  obtain ⟨hlow, hhigh⟩ := log_div_mem hnum hden
  have hcompare := zpow_le_div_iff two_pos hden num ((num.log2 : ℤ) - den.log2)
  rw [Int.zpow_le_iff_le_log (by decide) hx] at hcompare
  have hatLeast : (if 0 ≤ (num.log2 : ℤ) - den.log2 then
        decide (den * Nat.pow 2 ((num.log2 : ℤ) - den.log2).toNat ≤ num)
      else decide (den ≤ num * Nat.pow 2 (-((num.log2 : ℤ) - den.log2)).toNat)) =
      decide ((num.log2 : ℤ) - den.log2 ≤ Int.log 2 (num / den : ℚ)) := by
    rw [Bool.eq_iff_iff, decide_eq_true_iff, hcompare]
    split <;> rw [decide_eq_true_iff, Nat.pow_eq]
  rw [exponentFor, hatLeast, precision]
  congr 1
  split
  · next h =>
    have hlog := of_decide_eq_true h
    omega
  · next h =>
    have hlog := of_decide_eq_false (Bool.eq_false_iff.mpr h)
    omega

/-- The exponent of a quotient with fifty-three bits in front of that exponent. -/
lemma exponentFor_eq_of_mem {num den : ℕ} (hnum : 0 < num) (hden : 0 < den) {e : ℤ}
    (he : minExponent ≤ e) (hlow : (2 : ℚ) ^ (e + 52) ≤ num / den)
    (hhigh : (num / den : ℚ) < 2 ^ (e + 53)) : exponentFor num den = e := by
  have hx : (0 : ℚ) < num / den := div_pos (Nat.cast_pos.mpr hnum) (Nat.cast_pos.mpr hden)
  have hge := (Int.zpow_le_iff_le_log (b := 2) (by decide) hx).mp (by exact_mod_cast hlow)
  have hlt := (Int.lt_zpow_iff_log_lt (b := 2) (by decide) hx).mp (by exact_mod_cast hhigh)
  rw [exponentFor_eq hnum hden]
  omega

/-- The exponent of a quotient with at most fifty-three bits in front of the least exponent. -/
lemma exponentFor_eq_minExponent {num den : ℕ} (hnum : 0 < num) (hden : 0 < den)
    (hhigh : (num / den : ℚ) < 2 ^ (minExponent + 53)) : exponentFor num den = minExponent := by
  have hx : (0 : ℚ) < num / den := div_pos (Nat.cast_pos.mpr hnum) (Nat.cast_pos.mpr hden)
  have hlt := (Int.lt_zpow_iff_log_lt (b := 2) (by decide) hx).mp (by exact_mod_cast hhigh)
  rw [exponentFor_eq hnum hden]
  omega

/-! ### Quotients and decimals -/

/-- A quotient is rounded in units of its exponent. -/
lemma exists_ofRatio_eq {num den : ℕ} (hnum : 0 < num) (hden : 0 < den) (negative : Bool) :
    ∃ num' den' : ℕ, 0 < den' ∧ (num' / den' : ℚ) = num / den / 2 ^ exponentFor num den ∧
      ofRatio negative num den =
        pack negative (roundDiv num' den') (exponentFor num den) := by
  rw [ofRatio, if_neg hnum.ne']
  dsimp only
  by_cases he : 0 ≤ exponentFor num den
  · obtain ⟨k, hk⟩ := Int.eq_ofNat_of_zero_le he
    refine ⟨num, den * 2 ^ k, Nat.mul_pos hden (Nat.pow_pos two_pos), ?_, ?_⟩
    · rw [hk, zpow_natCast, div_div]
      push_cast
      rfl
    · rw [if_pos he, hk, Int.toNat_natCast, Nat.pow_eq]
  · obtain ⟨k, hk⟩ := Int.eq_ofNat_of_zero_le (by omega : 0 ≤ -exponentFor num den)
    have hexponent : exponentFor num den = -k := by omega
    refine ⟨num * 2 ^ k, den, hden, ?_, ?_⟩
    · rw [hexponent, zpow_neg, div_inv_eq_mul, zpow_natCast, div_mul_eq_mul_div]
      push_cast
      rfl
    · rw [if_neg he, hk, Int.toNat_natCast, Nat.pow_eq]

/-- A quotient, by the integer that it rounds to in units of its exponent. -/
lemma ofRatio_eq_pack {num den n : ℕ} (hnum : 0 < num) (hden : 0 < den)
    (h : IsNearest (num / den / 2 ^ exponentFor num den : ℚ) n) (negative : Bool) :
    ofRatio negative num den = pack negative n (exponentFor num den) := by
  obtain ⟨num', den', hden', hsame, heq⟩ := exists_ofRatio_eq hnum hden negative
  rw [heq, roundDiv_eq_of_isNearest hden' (hsame ▸ h)]

/-- A significand with the bits of a number. -/
lemma pack_eq_finite {m : ℕ} {e : ℤ} (h : IsCanonical m e) (negative : Bool) :
    pack negative m e = finite negative m e := by
  have hne : m ≠ Nat.pow 2 precision := Nat.ne_of_lt h.significand_lt
  rw [pack, if_neg hne]
  dsimp only
  rw [if_neg (not_lt.mpr h.le_maxExponent)]

/-- A significand that is one bit too long. -/
lemma pack_carry {e : ℤ} (h : e ≤ maxExponent) (negative : Bool) :
    pack negative (2 ^ 53) (e - 1) = finite negative (2 ^ 52) e := by
  have hexponent : e - 1 + 1 = e := by omega
  rw [pack, if_pos (by rfl)]
  dsimp only
  rw [hexponent, if_neg (not_lt.mpr h)]
  rfl

/-- A quotient between the middles of a number is read as the number. -/
lemma ofRatio_eq_finite {num den m : ℕ} {e : ℤ} (hnum : 0 < num) (hden : 0 < den)
    (hcanonical : IsCanonical m e) (hm : 0 < m) (h : RoundsTo (num / den) m e)
    (negative : Bool) : ofRatio negative num den = finite negative m e := by
  have hhigh := h.lt_pow hcanonical.significand_lt
  have hsame (he : exponentFor num den = e) : ofRatio negative num den = finite negative m e := by
    rw [ofRatio_eq_pack hnum hden (n := m) (by rw [he]; exact h.isNearest), he,
      pack_eq_finite hcanonical]
  rcases hcanonical.minExponent_le.eq_or_lt with rfl | hmore
  · exact hsame (exponentFor_eq_minExponent hnum hden hhigh)
  rcases le_or_gt ((2 : ℚ) ^ (e + 52)) (num / den) with hge | hlt
  · exact hsame (exponentFor_eq_of_mem hnum hden hmore.le hge hhigh)
  · -- the quotient has the exponent of the number below and is rounded up out of it
    obtain rfl := h.eq_pow_of_lt (hcanonical.full.resolve_right hmore.ne') hlt
    have hnearest := h.isNearest_pred hmore hlt
    have hpred : exponentFor num den = e - 1 := by
      have hlow := (le_div_iff₀ (by positivity)).mp hnearest.low
      have hsplit : (2 : ℚ) ^ (e - 1 + 52) = 2 ^ 52 * 2 ^ (e - 1) := two_zpow_add (e - 1) 52
      have hnext : e - 1 + 53 = e + 52 := by omega
      refine exponentFor_eq_of_mem hnum hden (by omega) (le_trans ?_ hlow) (by rwa [hnext])
      rw [hsplit]
      gcongr
      norm_num
    rw [ofRatio_eq_pack hnum hden (n := 2 ^ 53) (by rwa [hpred]), hpred,
      pack_carry hcanonical.le_maxExponent]

/-- How many digits a number has. -/
lemma length_toString_bounds {n : ℕ} (hn : 0 < n) :
    (10 : ℚ) ^ ((toString n).length - 1 : ℤ) ≤ n ∧ (n : ℚ) < 10 ^ ((toString n).length : ℤ) := by
  have hlength : (toString n).length = (Nat.toDigits 10 n).length := by
    rw [Nat.toString_eq_ofList_toDigits, String.length_ofList]
  have hpos : 0 < (Nat.toDigits 10 n).length := Nat.length_toDigits_pos
  rw [hlength]
  generalize hk : (Nat.toDigits 10 n).length = k at hpos
  have hbound (j : ℕ) (hj : 0 < j) : k ≤ j ↔ n < 10 ^ j := by
    rw [← hk]
    exact Nat.length_toDigits_le_iff (by decide) hj
  have hlow : 10 ^ (k - 1) ≤ n := by
    rcases Nat.eq_zero_or_pos (k - 1) with hzero | hmore
    · rw [hzero]
      exact hn
    · by_contra hlt
      have hle := (hbound _ hmore).mpr (not_le.mp hlt)
      omega
  have hhigh : n < 10 ^ k := (hbound k hpos).mp le_rfl
  have hpred : ((k : ℤ) - 1) = ((k - 1 : ℕ) : ℤ) := by omega
  rw [hpred, zpow_natCast, zpow_natCast]
  exact ⟨by exact_mod_cast hlow, by exact_mod_cast hhigh⟩

/-- What rounds to a number is within the range outside of which a decimal is decided by its order
of magnitude. -/
lemma RoundsTo.mem_range {x : ℚ} {m : ℕ} {e : ℤ} (h : RoundsTo x m e)
    (hcanonical : IsCanonical m e) (hm : 0 < m) :
    (10 : ℚ) ^ (-331 : ℤ) ≤ x ∧ x < 10 ^ (310 : ℤ) := by
  have hlow : minExponent ≤ e := hcanonical.minExponent_le
  have hhigh : e ≤ maxExponent := hcanonical.le_maxExponent
  have hsmall : 2 ^ 1075 ≤ 10 ^ 331 := by decide +kernel
  have hgreat : 2 ^ 1024 ≤ 10 ^ 310 := by decide +kernel
  rw [minExponent] at hlow
  rw [maxExponent] at hhigh
  constructor
  · calc (10 : ℚ) ^ (-331 : ℤ) = (10 ^ 331)⁻¹ := by rw [zpow_neg]; rfl
      _ ≤ (2 ^ 1075)⁻¹ := inv_anti₀ (by positivity) (by exact_mod_cast hsmall)
      _ = 2 ^ (-1075 : ℤ) := by rw [zpow_neg]; rfl
      _ ≤ 2 ^ (e - 1) := zpow_le_zpow_right₀ (by norm_num) (by omega)
      _ ≤ x := h.half_unit_le hm
  · calc x < 2 ^ (e + 53) := h.lt_pow hcanonical.significand_lt
      _ ≤ 2 ^ (1024 : ℤ) := zpow_le_zpow_right₀ (by norm_num) (by omega)
      _ ≤ 10 ^ (310 : ℤ) := by exact_mod_cast hgreat

/-- A decimal between the middles of a number is read as the number. -/
lemma ofDecimal_eq_finite {digits m : ℕ} {exponent e : ℤ} (hdigits : 0 < digits)
    (hcanonical : IsCanonical m e) (hm : 0 < m) (h : RoundsTo (digits * 10 ^ exponent) m e)
    (negative : Bool) : ofDecimal negative digits exponent = finite negative m e := by
  obtain ⟨hlow, hhigh⟩ := length_toString_bounds hdigits
  obtain ⟨hsmall, hgreat⟩ := h.mem_range hcanonical hm
  have hunit : (0 : ℚ) < 10 ^ exponent := by positivity
  have hten : (1 : ℚ) < 10 := by norm_num
  have hnotSmall : ¬(((toString digits).length : ℤ) + exponent < -330) := by
    have hlt : (10 : ℚ) ^ (-331 : ℤ) < 10 ^ (((toString digits).length : ℤ) + exponent) := by
      rw [zpow_add₀ (by norm_num)]
      exact hsmall.trans_lt (by gcongr)
    have hexponent := (zpow_lt_zpow_iff_right₀ hten).mp hlt
    omega
  have hnotGreat : ¬(310 < ((toString digits).length : ℤ) + exponent) := by
    have hlt : (10 : ℚ) ^ (((toString digits).length : ℤ) - 1 + exponent) < 10 ^ (310 : ℤ) := by
      rw [zpow_add₀ (by norm_num)]
      exact lt_of_le_of_lt (by gcongr) hgreat
    have hexponent := (zpow_lt_zpow_iff_right₀ hten).mp hlt
    omega
  rw [ofDecimal, if_neg (by rw [not_or]; exact ⟨hdigits.ne', hnotSmall⟩), if_neg hnotGreat]
  split
  · next hexponent =>
    obtain ⟨k, rfl⟩ := Int.eq_ofNat_of_zero_le hexponent
    rw [zpow_natCast] at h
    rw [Int.toNat_natCast, Nat.pow_eq]
    refine ofRatio_eq_finite (Nat.mul_pos hdigits (Nat.pow_pos (by decide))) one_pos hcanonical hm
      ?_ negative
    push_cast
    rwa [div_one]
  · next hexponent =>
    obtain ⟨k, hk⟩ := Int.eq_ofNat_of_zero_le (by omega : 0 ≤ -exponent)
    obtain rfl : exponent = -k := by omega
    rw [zpow_neg, zpow_natCast, ← div_eq_mul_inv] at h
    rw [neg_neg, Int.toNat_natCast, Nat.pow_eq]
    refine ofRatio_eq_finite hdigits (Nat.pow_pos (by decide)) hcanonical hm ?_ negative
    push_cast
    exact h

/-! ### Canonical forms -/

/-- A quotient below an integer is rounded to that integer at most, and one above to it at least. -/
lemma roundDiv_bounds {num den : ℕ} (hden : 0 < den) (n : ℕ) :
    ((num / den : ℚ) ≤ n → roundDiv num den ≤ n) ∧
      ((n : ℚ) ≤ num / den → n ≤ roundDiv num den) := by
  have hden' : (0 : ℚ) < den := Nat.cast_pos.mpr hden
  have hupper := roundDiv_mul_le num hden
  have hlower := le_roundDiv_mul num hden
  constructor
  · intro hle
    have hmul : num ≤ n * den := by exact_mod_cast (div_le_iff₀ hden').mp hle
    by_contra hlt
    have hstep : (n + 1) * den ≤ roundDiv num den * den := Nat.mul_le_mul_right den (by omega)
    rw [Nat.add_mul] at hstep
    omega
  · intro hle
    have hmul : n * den ≤ num := by exact_mod_cast (le_div_iff₀ hden').mp hle
    by_contra hlt
    have hstep : (roundDiv num den + 1) * den ≤ n * den := Nat.mul_le_mul_right den (by omega)
    rw [Nat.add_mul] at hstep
    omega

/-- In units of the exponent that a quotient is rounded at, it has at most fifty-three bits, and all
of them unless the exponent is the least one. -/
lemma scaled_bounds {num den : ℕ} (hnum : 0 < num) (hden : 0 < den) :
    (num / den / 2 ^ exponentFor num den : ℚ) ≤ 2 ^ 53 ∧
      (exponentFor num den ≠ minExponent →
        (2 : ℚ) ^ 52 ≤ num / den / 2 ^ exponentFor num den) := by
  have hx : (0 : ℚ) < num / den := div_pos (Nat.cast_pos.mpr hnum) (Nat.cast_pos.mpr hden)
  have hexponent := exponentFor_eq hnum hden
  generalize exponentFor num den = e at hexponent
  have hunit : (0 : ℚ) < 2 ^ e := by positivity
  constructor
  · rw [div_le_iff₀ hunit]
    calc (num / den : ℚ) ≤ 2 ^ (Int.log 2 (num / den : ℚ) + 1) :=
          (Int.lt_zpow_succ_log_self (b := 2) (by decide) _).le
      _ ≤ 2 ^ (e + 53) := zpow_le_zpow_right₀ (by norm_num) (by omega)
      _ = 2 ^ 53 * 2 ^ e := two_zpow_add e 53
  · intro hmore
    rw [le_div_iff₀ hunit]
    calc (2 : ℚ) ^ 52 * 2 ^ e = 2 ^ (e + 52) := (two_zpow_add e 52).symm
      _ ≤ 2 ^ Int.log 2 (num / den : ℚ) := zpow_le_zpow_right₀ (by norm_num) (by omega)
      _ ≤ num / den := Int.zpow_log_le_self (b := 2) (by decide) hx

lemma isCanonical_zero : IsCanonical 0 minExponent :=
  ⟨by norm_num, le_rfl, by decide, .inr rfl⟩

/-- A significand of at most fifty-three bits, or one that is rounded up to the next power of two,
gives a number in canonical form. -/
lemma isCanonical_of_pack {q m : ℕ} {e e' : ℤ} {negative negative' : Bool} (hbits : q ≤ 2 ^ 53)
    (hleast : minExponent ≤ e') (hfull : e' ≠ minExponent → 2 ^ 52 ≤ q)
    (h : pack negative q e' = finite negative' m e) : IsCanonical m e := by
  rw [pack] at h
  rcases hbits.eq_or_lt with hcarry | hshort
  · rw [if_pos (show q = Nat.pow 2 precision from hcarry)] at h
    dsimp only at h
    split at h
    · cases h
    · next hrange =>
      cases h
      exact ⟨by decide, by omega, not_lt.mp hrange, .inl le_rfl⟩
  · rw [if_neg (show q ≠ Nat.pow 2 precision from hshort.ne)] at h
    dsimp only at h
    split at h
    · cases h
    · next hrange =>
      cases h
      exact ⟨hshort, hleast, not_lt.mp hrange, (eq_or_ne e minExponent).symm.imp hfull id⟩

/-- A finite number that a quotient rounds to is in canonical form. -/
lemma isCanonical_of_ofRatio {num den m : ℕ} {e : ℤ} (hden : 0 < den) {negative negative' : Bool}
    (h : ofRatio negative num den = finite negative' m e) : IsCanonical m e := by
  rcases Nat.eq_zero_or_pos num with rfl | hnum
  · rw [ofRatio, if_pos rfl] at h
    cases h
    exact isCanonical_zero
  obtain ⟨num', den', hden', hsame, heq⟩ := exists_ofRatio_eq hnum hden negative
  obtain ⟨hupper, hlower⟩ := scaled_bounds hnum hden
  rw [← hsame] at hupper hlower
  rw [heq] at h
  refine isCanonical_of_pack ((roundDiv_bounds hden' _).1 (by exact_mod_cast hupper))
    (le_max_right _ _) (fun hmore => ?_) h
  exact (roundDiv_bounds hden' _).2 (by exact_mod_cast hlower hmore)

/-- A finite number that a decimal is read as is in canonical form. -/
lemma isCanonical_of_ofDecimal {digits m : ℕ} {exponent e : ℤ} {negative negative' : Bool}
    (h : ofDecimal negative digits exponent = finite negative' m e) : IsCanonical m e := by
  rw [ofDecimal] at h
  split at h
  · cases h
    exact isCanonical_zero
  split at h
  · cases h
  split at h
  · exact isCanonical_of_ofRatio one_pos h
  · exact isCanonical_of_ofRatio (Nat.pow_pos (by decide)) h

end Binary64

end AbiBridge
