import AbiBridge.Number.Shortest

/-!
Numbers as text.

A number is written with the fewest digits that read back. `NumberLayout` says between which
exponents of the leading digit the digits are placed around a point, and how an exponent is
written beyond them. `Binary64.ofString?` reads a decimal, with or without a fraction and an
exponent, or one of the words for what is no finite number.
-/

namespace AbiBridge

/-- How the digits of a number are laid out. -/
structure NumberLayout where
  /-- The least exponent of the leading digit at which no exponent is written. -/
  least : Int
  /-- The first exponent above that at which one is written again. -/
  limit : Int
  /-- The least number of digits of an exponent. -/
  exponentDigits : Nat

namespace NumberLayout

/-- Digits with a point behind the first `places` of them, zeros being filled in on either side;
a whole number has one zero behind the point. -/
def positional (digits : List Char) (places : Int) : List Char :=
  if places ≤ 0 then '0' :: '.' :: List.replicate (-places).toNat '0' ++ digits
  else
    let n := places.toNat
    if digits.length ≤ n then
      digits ++ List.replicate (n - digits.length) '0' ++ ['.', '0']
    else digits.take n ++ '.' :: digits.drop n

/-- Digits with a point behind the first one, and the exponent of that digit. -/
def scientific (l : NumberLayout) (digits : List Char) (lead : Int) : List Char :=
  let fraction := match digits.drop 1 with
    | [] => []
    | rest => '.' :: rest
  let size := Nat.toDigits 10 lead.natAbs
  let padded := List.replicate (l.exponentDigits - size.length) '0' ++ size
  digits.take 1 ++ fraction ++ 'e' :: (if lead < 0 then '-' else '+') :: padded

/-- The text of a positive decimal. -/
def render (l : NumberLayout) (d : Binary64.ShortDecimal) : List Char :=
  let digits := Nat.toDigits 10 d.digits
  let lead := d.exponent + (digits.length : Int) - 1
  if l.least ≤ lead ∧ lead < l.limit then positional digits (lead + 1)
  else l.scientific digits lead

end NumberLayout

namespace Binary64

/-- Numbers are written without an exponent from four zeros behind the point up to sixteen digits
in front of it; an exponent has a sign and two digits at least. -/
def layout : NumberLayout := ⟨-4, 16, 2⟩

/-- The text of a number. -/
def text : Binary64 → String
  | nan => "nan"
  | infinite negative => if negative then "-inf" else "inf"
  | finite negative significand exponent =>
      let sign := if negative then "-" else ""
      if significand = 0 then sign ++ "0.0"
      else sign ++ String.ofList (layout.render (shortest significand exponent))

/-! ### Reading -/

/-- The number that decimal digits stand for. -/
def ofDigits (cs : List Char) : Nat := cs.foldl (fun n c => n * 10 + (c.toNat - '0'.toNat)) 0

/-- A sign, and whether it is a minus. -/
def readSign : List Char → Bool × List Char
  | '-' :: r => (true, r)
  | '+' :: r => (false, r)
  | r => (false, r)

/-- The exponent at the end of a decimal, zero if there is none. -/
def readExponent? : List Char → Option Int
  | [] => some 0
  | c :: r =>
      let (negative, digits) := readSign r
      if (c == 'e' || c == 'E') && !digits.isEmpty && digits.all Char.isDigit then
        let n : Int := ofDigits digits
        some (if negative then -n else n)
      else none

/-- A decimal without its sign. -/
def readMagnitude? (negative : Bool) (cs : List Char) : Option Binary64 :=
  let whole := cs.takeWhile Char.isDigit
  match cs.dropWhile Char.isDigit with
  | '.' :: r =>
      let fraction := r.takeWhile Char.isDigit
      if whole.isEmpty && fraction.isEmpty then none
      else (readExponent? (r.dropWhile Char.isDigit)).map fun e =>
        ofDecimal negative (ofDigits (whole ++ fraction)) (e - fraction.length)
  | r =>
      if whole.isEmpty then none
      else (readExponent? r).map fun e => ofDecimal negative (ofDigits whole) e

/-- The number that a text stands for. -/
def ofString? (s : String) : Option Binary64 :=
  let (negative, cs) := readSign s.toList
  if cs = ['i', 'n', 'f'] then some (infinite negative)
  else if cs = ['n', 'a', 'n'] then some nan
  else readMagnitude? negative cs

end Binary64

end AbiBridge
