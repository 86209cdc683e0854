import AbiBridge.Number.Binary64

/-!
The shortest decimal of a floating-point number.

A decimal reads back as a number if it lies in the interval of the reals that round to it; the
ends belong to the interval if the significand is even. `shortest` looks on the grids of one, two
and more decimal digits for a point of that interval, and on the first grid that has one takes
the point nearest to the number, of two the even one.
-/

namespace AbiBridge

namespace Binary64

/-- The reals that round to a number, and the number itself, over one denominator. -/
structure Interval where
  low : Nat
  value : Nat
  high : Nat
  den : Nat
  /-- Whether the ends belong to the interval. -/
  closed : Bool

/-- The interval of a positive number. The number below a power of two is half as far away as the
one above, unless the exponent is the least one. -/
def interval (significand : Nat) (exponent : Int) : Interval :=
  let below := if significand = Nat.pow 2 (precision - 1) ∧ minExponent < exponent then 1 else 2
  let scale := exponent - 2
  let num := if 0 ≤ scale then Nat.pow 2 scale.toNat else 1
  let den := if 0 ≤ scale then 1 else Nat.pow 2 (-scale).toNat
  ⟨(4 * significand - below) * num, 4 * significand * num, (4 * significand + 2) * num, den,
    significand % 2 = 0⟩

namespace Interval

/-- The interval in units of `10 ^ k`. -/
def scaled (i : Interval) (k : Int) : Interval :=
  if 0 ≤ k then { i with den := i.den * Nat.pow 10 k.toNat }
  else
    let factor := Nat.pow 10 (-k).toNat
    ⟨i.low * factor, i.value * factor, i.high * factor, i.den, i.closed⟩

/-- Whether an integer lies in the interval. -/
def contains (i : Interval) (c : Nat) : Bool :=
  if i.closed then i.low ≤ c * i.den && c * i.den ≤ i.high
  else i.low < c * i.den && c * i.den < i.high

/-- The integer of the interval that is nearest to the number, of two the even one. -/
def nearest? (i : Interval) : Option Nat :=
  let floor := i.value / i.den
  match i.contains floor, i.contains (floor + 1) with
  | false, false => none
  | true, false => some floor
  | false, true => some (floor + 1)
  | true, true =>
      let down := i.value - floor * i.den
      let up := (floor + 1) * i.den - i.value
      if down < up then some floor
      else if up < down then some (floor + 1)
      else some (floor + floor % 2)

/-- The exponent of the leading decimal digit of the number. -/
def leadingExponent (i : Interval) : Int :=
  if i.den ≤ i.value then ((toString (i.value / i.den)).length : Int) - 1
  else
    let e : Int := -((toString (i.den / i.value)).length : Int)
    if i.den ≤ i.value * Nat.pow 10 (-(e + 1)).toNat then e + 1 else e

end Interval

/-- A positive decimal: its digits as a number, and the exponent of the last one. -/
structure ShortDecimal where
  digits : Nat
  exponent : Int
  deriving DecidableEq, Repr

/-- The decimal without the zeros at its end; `fuel` bounds their number. -/
def ShortDecimal.strip (d : ShortDecimal) : (fuel : Nat) → ShortDecimal
  | 0 => d
  | fuel + 1 =>
      if d.digits % 10 = 0 then strip ⟨d.digits / 10, d.exponent + 1⟩ fuel else d

/-- The shortest decimal that reads back as a positive number. -/
def shortest (significand : Nat) (exponent : Int) : ShortDecimal :=
  let i := interval significand exponent
  let lead := i.leadingExponent
  let found := (List.range 17).findSome? fun (n : Nat) =>
    let k := lead - n
    (i.scaled k).nearest?.map fun c => ShortDecimal.mk c k
  (found.getD ⟨0, 0⟩).strip 17

end Binary64

end AbiBridge
