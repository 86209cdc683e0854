/-!
Floating-point numbers of sixty-four bits.

A finite number is `significand * 2 ^ exponent` with a sign. The significand has at most
fifty-three bits and the exponent is at least -1074; the significand has all its bits unless the
exponent is the least one. `ofDecimal` rounds a decimal to the nearest number, a tie to the even
significand.

* `roundDiv_mul_le`, `le_roundDiv_mul`: a rounded quotient is within half a unit of the exact one.
-/

namespace AbiBridge

/-- A floating-point number. -/
inductive Binary64 where
  | nan
  | infinite (negative : Bool)
  | finite (negative : Bool) (significand : Nat) (exponent : Int)
  deriving DecidableEq, Repr, Inhabited

/-- The quotient rounded to the nearest integer, a tie to the even one. -/
def roundDiv (num den : Nat) : Nat :=
  let q := num / den
  let r := num % den
  if 2 * r < den then q else if den < 2 * r then q + 1 else q + q % 2

theorem roundDiv_mul_le (num : Nat) {den : Nat} (h : 0 < den) :
    2 * (roundDiv num den * den) ≤ 2 * num + den := by
  have hdiv := Nat.div_add_mod num den
  have hmul : (num / den + 1) * den = den * (num / den) + den := by
    rw [Nat.add_mul, Nat.mul_comm, Nat.one_mul]
  have hq : num / den * den = den * (num / den) := Nat.mul_comm _ _
  simp only [roundDiv]
  split
  · omega
  · split
    · omega
    · rcases Nat.mod_two_eq_zero_or_one (num / den) with h' | h' <;> rw [h']
      · rw [Nat.add_zero]; omega
      · omega

theorem le_roundDiv_mul (num : Nat) {den : Nat} (h : 0 < den) :
    2 * num ≤ 2 * (roundDiv num den * den) + den := by
  have hdiv := Nat.div_add_mod num den
  have hlt := Nat.mod_lt num h
  have hmul : (num / den + 1) * den = den * (num / den) + den := by
    rw [Nat.add_mul, Nat.mul_comm, Nat.one_mul]
  have hq : num / den * den = den * (num / den) := Nat.mul_comm _ _
  simp only [roundDiv]
  split
  · omega
  · split
    · omega
    · rcases Nat.mod_two_eq_zero_or_one (num / den) with h' | h' <;> rw [h']
      · rw [Nat.add_zero]; omega
      · omega

namespace Binary64

/-- The least exponent. -/
def minExponent : Int := -1074

/-- The greatest exponent. -/
def maxExponent : Int := 971

/-- How many bits a significand has. -/
def precision : Nat := 53

/-- The whole number that this is, if it is one. -/
def toInt? : Binary64 → Option Int
  | finite negative significand exponent =>
      let unit := Nat.pow 2 exponent.natAbs
      let magnitude? :=
        if 0 ≤ exponent then some (significand * unit)
        else if significand % unit = 0 then some (significand / unit)
        else none
      magnitude?.map fun (m : Nat) => if negative then -(m : Int) else m
  | _ => none

/-- A significand of the given exponent, in the form with at most fifty-three bits; too great a
number is infinite. -/
def pack (negative : Bool) (significand : Nat) (exponent : Int) : Binary64 :=
  let (m, e) :=
    if significand = Nat.pow 2 precision then (Nat.pow 2 (precision - 1), exponent + 1)
    else (significand, exponent)
  if maxExponent < e then infinite negative else finite negative m e

/-- The exponent at which a positive quotient has fifty-three bits, or the least exponent. -/
def exponentFor (num den : Nat) : Int :=
  let bits : Int := (num.log2 : Int) - (den.log2 : Int)
  let atLeast : Bool :=
    if 0 ≤ bits then den * Nat.pow 2 bits.toNat ≤ num else den ≤ num * Nat.pow 2 (-bits).toNat
  let e := (if atLeast then bits else bits - 1) - (precision - 1 : Nat)
  max e minExponent

/-- The number nearest to a quotient. -/
def ofRatio (negative : Bool) (num den : Nat) : Binary64 :=
  if num = 0 then finite negative 0 minExponent
  else
    let e := exponentFor num den
    let m :=
      if 0 ≤ e then roundDiv num (den * Nat.pow 2 e.toNat)
      else roundDiv (num * Nat.pow 2 (-e).toNat) den
    pack negative m e

/-- The number nearest to `digits * 10 ^ exponent`. Decimals beyond the range are decided by
their order of magnitude alone. -/
def ofDecimal (negative : Bool) (digits : Nat) (exponent : Int) : Binary64 :=
  let magnitude : Int := ((toString digits).length : Int) + exponent
  if digits = 0 ∨ magnitude < -330 then finite negative 0 minExponent
  else if 310 < magnitude then infinite negative
  else if 0 ≤ exponent then ofRatio negative (digits * Nat.pow 10 exponent.toNat) 1
  else ofRatio negative digits (Nat.pow 10 (-exponent).toNat)

end Binary64

end AbiBridge
