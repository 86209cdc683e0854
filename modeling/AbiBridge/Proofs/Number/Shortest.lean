import AbiBridge.Number.Shortest
import AbiBridge.Proofs.Number.Rounding

/-!
The shortest decimal of a number rounds to it.

The points of a grid of seventeen decimal digits are closer together than the middles around a
number, so that one of the two points next to the number lies between the middles. Hence the search
ends on the last grid at the latest, and what it finds is between the middles wherever it ends.

* `Interval.Spans`: the three rationals that an interval stands for;
* `Interval.exists_nearest?`: a point is found if the interval is longer than the unit;
* `contains_scaled_interval_iff`: the points that are looked for are the decimals that round to the
  number;
* `shortest_roundsTo`: so does the shortest decimal.
-/

namespace AbiBridge.Binary64

namespace Interval

/-- The rationals that an interval stands for. -/
structure Spans (i : Interval) (low value high : ℚ) : Prop where
  den_pos : 0 < i.den
  low_eq : (i.low : ℚ) / i.den = low
  value_eq : (i.value : ℚ) / i.den = value
  high_eq : (i.high : ℚ) / i.den = high

section Points

variable {i : Interval} {low value high : ℚ} (h : i.Spans low value high)

include h

lemma Spans.den_cast_pos : (0 : ℚ) < i.den := Nat.cast_pos.mpr h.den_pos

/-- The interval in another unit. -/
lemma Spans.scaled (k : ℤ) :
    (i.scaled k).Spans (low / 10 ^ k) (value / 10 ^ k) (high / 10 ^ k) := by
  have hden := h.den_cast_pos
  obtain ⟨-, rfl, rfl, rfl⟩ := h
  rw [Interval.scaled]
  split
  · next hk =>
    obtain ⟨n, rfl⟩ := Int.eq_ofNat_of_zero_le hk
    rw [Int.toNat_natCast, Nat.pow_eq, zpow_natCast]
    refine ⟨Nat.mul_pos (Nat.cast_pos.mp hden) (Nat.pow_pos (by decide)), ?_, ?_, ?_⟩ <;>
    · push_cast
      rw [div_div]
  · next hk =>
    obtain ⟨n, hn⟩ := Int.eq_ofNat_of_zero_le (by omega : 0 ≤ -k)
    obtain rfl : k = -n := by omega
    rw [neg_neg, Int.toNat_natCast, Nat.pow_eq, zpow_neg, zpow_natCast]
    refine ⟨Nat.cast_pos.mp hden, ?_, ?_, ?_⟩ <;>
    · push_cast
      rw [div_inv_eq_mul, div_mul_eq_mul_div]

/-- The integers of an interval. -/
lemma Spans.contains_iff (c : ℕ) : i.contains c = true ↔
    low ≤ c ∧ c ≤ high ∧ (i.closed = false → low < c ∧ c < high) := by
  have hden := h.den_cast_pos
  obtain ⟨-, rfl, -, rfl⟩ := h
  have hle : (i.low : ℚ) / i.den ≤ c ↔ i.low ≤ c * i.den := by
    rw [div_le_iff₀ hden]; exact_mod_cast Iff.rfl
  have hle' : (c : ℚ) ≤ i.high / i.den ↔ c * i.den ≤ i.high := by
    rw [le_div_iff₀ hden]; exact_mod_cast Iff.rfl
  have hlt : (i.low : ℚ) / i.den < c ↔ i.low < c * i.den := by
    rw [div_lt_iff₀ hden]; exact_mod_cast Iff.rfl
  have hlt' : (c : ℚ) < i.high / i.den ↔ c * i.den < i.high := by
    rw [lt_div_iff₀ hden]; exact_mod_cast Iff.rfl
  rw [hle, hle', hlt, hlt', contains]
  cases i.closed
  · simp only [Bool.false_eq_true, if_false, Bool.and_eq_true, decide_eq_true_eq, forall_const]
    omega
  · simp

/-- The integer below the value of an interval. -/
lemma Spans.floor_bounds :
    ((i.value / i.den : ℕ) : ℚ) ≤ value ∧ value < (i.value / i.den : ℕ) + 1 := by
  have hden := h.den_cast_pos
  obtain ⟨hpos, -, rfl, -⟩ := h
  constructor
  · rw [le_div_iff₀ hden]
    exact_mod_cast Nat.div_mul_le_self i.value i.den
  · rw [div_lt_iff₀ hden]
    exact_mod_cast Nat.lt_mul_of_div_lt (Nat.lt_succ_self _) hpos

end Points

lemma contains_of_nearest? {i : Interval} {c : ℕ} (h : i.nearest? = some c) :
    i.contains c = true := by
  simp only [nearest?] at h
  split at h
  · cases h
  · next hfloor _ => cases h; exact hfloor
  · next _ hnext => cases h; exact hnext
  · next hfloor hnext =>
    split at h
    · cases h; exact hfloor
    split at h
    · cases h; exact hnext
    · cases h
      rcases Nat.mod_two_eq_zero_or_one (i.value / i.den) with heven | hodd
      · rwa [heven]
      · rwa [hodd]

lemma exists_nearest?_of_contains {i : Interval}
    (h : i.contains (i.value / i.den) = true ∨ i.contains (i.value / i.den + 1) = true) :
    ∃ c, i.nearest? = some c := by
  simp only [nearest?]
  split
  · next hfloor hnext => simp [hfloor, hnext] at h
  · exact ⟨_, rfl⟩
  · exact ⟨_, rfl⟩
  · split
    · exact ⟨_, rfl⟩
    split <;> exact ⟨_, rfl⟩

/-- An interval that is longer than the unit has an integer next to its value. -/
lemma Spans.exists_nearest? {i : Interval} {low value high : ℚ} (h : i.Spans low value high)
    (hlow : low < value) (hhigh : value < high) (hlong : 1 < high - low) :
    ∃ c, i.nearest? = some c := by
  obtain ⟨hfloor, hnext⟩ := h.floor_bounds
  refine exists_nearest?_of_contains ?_
  rw [h.contains_iff, h.contains_iff]
  push_cast
  rcases lt_or_ge low ((i.value / i.den : ℕ) : ℚ) with hbelow | hbelow
  · have habove : ((i.value / i.den : ℕ) : ℚ) < high := by linarith
    exact .inl ⟨hbelow.le, habove.le, fun _ => ⟨hbelow, habove⟩⟩
  · have hbelow' : low < (i.value / i.den : ℕ) + 1 := by linarith
    have habove : ((i.value / i.den : ℕ) : ℚ) + 1 < high := by linarith
    exact .inr ⟨hbelow'.le, habove.le, fun _ => ⟨hbelow', habove⟩⟩

/-- The leading digit of the value has at least the exponent that is computed for it. -/
lemma Spans.pow_leadingExponent_le {i : Interval} {low value high : ℚ}
    (h : i.Spans low value high) (hvalue : 0 < value) :
    (10 : ℚ) ^ i.leadingExponent ≤ value := by
  have hden := h.den_cast_pos
  have hpos := h.den_pos
  obtain ⟨hfloor, -⟩ := h.floor_bounds
  have hvalueEq := h.value_eq
  have hvaluePos : 0 < i.value := by
    rw [← hvalueEq, lt_div_iff₀ hden, zero_mul] at hvalue
    exact Nat.cast_pos.mp hvalue
  rw [leadingExponent]
  split
  · next hle =>
    exact ((length_toString_bounds (Nat.div_pos hle hpos)).1).trans hfloor
  next hlt =>
  have hquotient : 0 < i.den / i.value := Nat.div_pos (not_le.mp hlt).le hvaluePos
  have hlength : 1 ≤ (toString (i.den / i.value)).length := by
    have hdigits : 0 < (Nat.toDigits 10 (i.den / i.value)).length := Nat.length_toDigits_pos
    rwa [Nat.toString_eq_ofList_toDigits, String.length_ofList]
  dsimp only
  split
  · next hle =>
    rw [← hvalueEq]
    refine (zpow_le_div_iff (b := 10) (by decide) hpos i.value _).mpr ?_
    rw [Nat.pow_eq] at hle
    split
    · next hzero =>
      have hone : -((toString (i.den / i.value)).length : ℤ) + 1 = 0 := by omega
      rw [hone] at hle ⊢
      simpa using hle
    · exact hle
  · obtain ⟨-, hhigh⟩ := length_toString_bounds hquotient
    rw [← hvalueEq, zpow_neg, le_div_iff₀ hden, inv_mul_le_iff₀ (by positivity)]
    rw [zpow_natCast] at hhigh ⊢
    have hdivision : i.den ≤ (i.den / i.value + 1) * i.value :=
      (Nat.lt_mul_of_div_lt (Nat.lt_succ_self _) hvaluePos).le
    have hstep : i.den / i.value + 1 ≤ 10 ^ (toString (i.den / i.value)).length := by
      exact_mod_cast hhigh
    exact_mod_cast hdivision.trans (Nat.mul_le_mul_right _ hstep)

end Interval

/-! ### The interval of a number -/

/-- A power of two as a numerator and a denominator, of which one is one. -/
lemma two_zpow_eq_div (k : ℤ) : (2 : ℚ) ^ k =
    (if 0 ≤ k then Nat.pow 2 k.toNat else 1 : ℕ) /
      (if 0 ≤ k then 1 else Nat.pow 2 (-k).toNat : ℕ) := by
  split
  · next hk =>
    obtain ⟨n, rfl⟩ := Int.eq_ofNat_of_zero_le hk
    rw [Int.toNat_natCast, zpow_natCast, Nat.pow_eq]
    simp
  · next hk =>
    obtain ⟨n, hn⟩ := Int.eq_ofNat_of_zero_le (by omega : 0 ≤ -k)
    obtain rfl : k = -n := by omega
    rw [neg_neg, Int.toNat_natCast, zpow_neg, zpow_natCast, Nat.pow_eq]
    simp

/-- The lower end of the interval, in quarters of the unit. -/
lemma cast_low_eq {m : ℕ} (hm : 0 < m) (e : ℤ) :
    ((4 * m - if m = Nat.pow 2 (precision - 1) ∧ minExponent < e then 1 else 2 : ℕ) : ℚ) =
      4 * (m - gapBelow m e) := by
  have hfull : Nat.pow 2 (precision - 1) = 2 ^ 52 := rfl
  rw [hfull, gapBelow]
  by_cases h : m = 2 ^ 52 ∧ minExponent < e
  · rw [if_pos h, if_pos h, Nat.cast_sub (by omega)]
    push_cast
    ring
  · rw [if_neg h, if_neg h, Nat.cast_sub (by omega)]
    push_cast
    ring

/-- The interval of a number lies between its middles. -/
lemma interval_spans {m : ℕ} (hm : 0 < m) (e : ℤ) : (interval m e).Spans
    ((m - gapBelow m e) * 2 ^ e) (m * 2 ^ e) ((m + 1 / 2) * 2 ^ e) := by
  have hquarter : (2 : ℚ) ^ e = 4 * 2 ^ (e - 2) := by
    have htwice : e - 1 - 1 = e - 2 := by omega
    rw [two_zpow_eq_double e, two_zpow_eq_double (e - 1), htwice]
    ring
  rw [interval, hquarter, two_zpow_eq_div (e - 2)]
  refine ⟨?_, ?_, ?_, ?_⟩
  · dsimp only
    split
    · exact one_pos
    · exact Nat.pow_pos two_pos
  · dsimp only
    rw [Nat.cast_mul, mul_div_assoc, cast_low_eq hm]
    ring
  · dsimp only
    rw [Nat.cast_mul, mul_div_assoc]
    push_cast
    ring
  · dsimp only
    rw [Nat.cast_mul, mul_div_assoc]
    push_cast
    ring

/-- The points of a decimal grid that lie in the interval of a number are the decimals that round to
it. -/
lemma contains_scaled_interval_iff {m : ℕ} (hm : 0 < m) (e k : ℤ) (c : ℕ) :
    ((interval m e).scaled k).contains c = true ↔ RoundsTo (c * 10 ^ k) m e := by
  have hclosed : ((interval m e).scaled k).closed = decide (m % 2 = 0) := by
    rw [Interval.scaled]
    split <;> rfl
  have hunit : (0 : ℚ) < 10 ^ k := by positivity
  rw [((interval_spans hm e).scaled k).contains_iff, hclosed, div_le_iff₀ hunit, le_div_iff₀ hunit,
    div_lt_iff₀ hunit, lt_div_iff₀ hunit]
  constructor
  · rintro ⟨hlow, hhigh, hinner⟩
    exact ⟨hlow, hhigh, fun hodd => hinner (by simp [hodd])⟩
  · rintro ⟨hlow, hhigh, hinner⟩
    refine ⟨hlow, hhigh, fun hopen => hinner ?_⟩
    simpa using hopen

/-- Seventeen digits are enough. -/
lemma exists_nearest?_seventeen {m : ℕ} {e : ℤ} (hcanonical : IsCanonical m e) (hm : 0 < m) :
    ∃ c, ((interval m e).scaled ((interval m e).leadingExponent - 16)).nearest? = some c := by
  have hspans := interval_spans hm e
  have hunit : (0 : ℚ) < 2 ^ e := by positivity
  have hmPos : (0 : ℚ) < m := Nat.cast_pos.mpr hm
  have hgap := gapBelow_pos m e
  have hlead := hspans.pow_leadingExponent_le (by positivity)
  have hgrid : (0 : ℚ) < 10 ^ ((interval m e).leadingExponent - 16) := by positivity
  have hshort : (m : ℚ) < 10 ^ 16 * (gapBelow m e + 1 / 2) := by
    have hbits : (m : ℚ) < 2 ^ 53 := by exact_mod_cast hcanonical.significand_lt
    rw [gapBelow]
    split
    · next h =>
      rw [h.1]
      norm_num
    · linarith
  refine (hspans.scaled _).exists_nearest? ?_ ?_ ?_
  · gcongr
    linarith
  · gcongr
    linarith
  · rw [← sub_div, one_lt_div hgrid, zpow_sub₀ (by norm_num)]
    rw [div_lt_iff₀ (by positivity)]
    calc (10 : ℚ) ^ (interval m e).leadingExponent ≤ m * 2 ^ e := hlead
      _ < 10 ^ 16 * (gapBelow m e + 1 / 2) * 2 ^ e := by gcongr
      _ = ((m + 1 / 2) * 2 ^ e - (m - gapBelow m e) * 2 ^ e) * 10 ^ (16 : ℤ) := by
        norm_num
        ring

/-- The decimal without the zeros at its end is the same number. -/
lemma strip_eq (d : ShortDecimal) (fuel : ℕ) :
    ((d.strip fuel).digits : ℚ) * 10 ^ (d.strip fuel).exponent = d.digits * 10 ^ d.exponent := by
  induction fuel generalizing d with
  | zero => rfl
  | succ fuel ih =>
      rw [ShortDecimal.strip]
      split
      · next hzero =>
        rw [ih, zpow_add_one₀ (by norm_num)]
        obtain ⟨n, hn⟩ := Nat.dvd_of_mod_eq_zero hzero
        rw [hn, Nat.mul_div_cancel_left n (by decide)]
        push_cast
        ring
      · rfl

/-- The shortest decimal rounds to the number. -/
lemma shortest_roundsTo {m : ℕ} {e : ℤ} (hcanonical : IsCanonical m e) (hm : 0 < m) :
    RoundsTo ((shortest m e).digits * 10 ^ (shortest m e).exponent) m e := by
  rw [shortest]
  dsimp only
  rw [strip_eq]
  cases hfound : (List.range 17).findSome? fun (n : ℕ) =>
      ((interval m e).scaled ((interval m e).leadingExponent - n)).nearest?.map fun c =>
        ShortDecimal.mk c ((interval m e).leadingExponent - n) with
  | none =>
      obtain ⟨c, hc⟩ := exists_nearest?_seventeen hcanonical hm
      have hlast := List.findSome?_eq_none_iff.mp hfound 16 (by decide)
      rw [Nat.cast_ofNat, hc] at hlast
      cases hlast
  | some d =>
      obtain ⟨n, -, hn⟩ := List.exists_of_findSome?_eq_some hfound
      obtain ⟨c, hc, rfl⟩ := Option.map_eq_some_iff.mp hn
      exact (contains_scaled_interval_iff hm _ _ _).mp (Interval.contains_of_nearest? hc)

/-- A decimal that rounds to a positive number has a digit other than zero. -/
lemma digits_pos_of_roundsTo {digits m : ℕ} {exponent e : ℤ}
    (h : RoundsTo (digits * 10 ^ exponent) m e) (hm : 0 < m) : 0 < digits := by
  by_contra hzero
  have hpos := h.pos hm
  rw [Nat.eq_zero_of_not_pos hzero] at hpos
  simp at hpos

lemma digits_shortest_pos {m : ℕ} {e : ℤ} (hcanonical : IsCanonical m e) (hm : 0 < m) :
    0 < (shortest m e).digits :=
  digits_pos_of_roundsTo (shortest_roundsTo hcanonical hm) hm

/-- The shortest decimal is read as the number, and so is every decimal that equals it. -/
lemma ofDecimal_shortest {m : ℕ} {e : ℤ} (hcanonical : IsCanonical m e) (hm : 0 < m)
    {digits : ℕ} {exponent : ℤ} (hsame : (digits * 10 ^ exponent : ℚ) =
      (shortest m e).digits * 10 ^ (shortest m e).exponent) (negative : Bool) :
    ofDecimal negative digits exponent = finite negative m e := by
  have hrounds := shortest_roundsTo hcanonical hm
  rw [← hsame] at hrounds
  exact ofDecimal_eq_finite (digits_pos_of_roundsTo hrounds hm) hcanonical hm hrounds negative

end AbiBridge.Binary64
