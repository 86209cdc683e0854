import AbiBridge.Text.Hex
import AbiBridge.Toml.Fault
import AbiBridge.Value.Basic

/-!
Numbers and dates in documents.

An integer is decimal with or without a sign, or hexadecimal, octal or binary behind `0x`, `0o` or
`0b`; a decimal one has a limit for its digits. A decimal with a fraction or an exponent is a
floating-point number, and so are `inf` and `nan`. Single underscores may stand between digits, and
a decimal has no zeros in front. Dates and times have the international form, with a fraction of a
second of which six digits count.

Every reader gives a value and the characters behind it.
-/

namespace AbiBridge

open Text

namespace Toml

/-! ### Numbers -/

/-- The digits of a run in which single underscores may stand between digits. -/
def digitRun (isDigit : Char → Bool) : List Char → List Char × List Char
  | '_' :: d :: r =>
      if isDigit d then
        let (ds, rest) := digitRun isDigit r
        (d :: ds, rest)
      else ([], '_' :: d :: r)
  | c :: r =>
      if isDigit c then
        let (ds, rest) := digitRun isDigit r
        (c :: ds, rest)
      else ([], c :: r)
  | [] => ([], [])

/-- A run of digits that begins with one. -/
def digits? (isDigit : Char → Bool) : List Char → Option (List Char × List Char)
  | [] => none
  | c :: r => if isDigit c then some (digitRun isDigit (c :: r)) else none

/-- The number of digits to a base. -/
def ofDigits (base : Nat) (ds : List Char) : Nat :=
  ds.foldl (fun n d => n * base + (hexValue? d).getD 0) 0

/-- Whether a character is a digit to a base. -/
def isDigitOf (base : Nat) (c : Char) : Bool :=
  match hexValue? c with
  | some n => n < base
  | none => false

/-- The whole part of a decimal: a zero alone, or digits of which the first is none. -/
def whole? : List Char → Option (List Char × List Char)
  | [] => none
  | c :: r => if c == '0' then some (['0'], r) else digits? Char.isDigit (c :: r)

/-- The fraction of a decimal, which may be absent. -/
def fraction : List Char → Option (List Char) × List Char
  | '.' :: r =>
      match digits? Char.isDigit r with
      | some (ds, rest) => (some ds, rest)
      | none => (none, '.' :: r)
  | r => (none, r)

/-- The exponent of a decimal, which may be absent. -/
def exponent : List Char → Option Int × List Char
  | [] => (none, [])
  | c :: r =>
      if c == 'e' || c == 'E' then
        let (negative, digits) := Binary64.readSign r
        match digits? Char.isDigit digits with
        | some (ds, rest) =>
            let n : Int := ofDigits 10 ds
            (some (if negative then -n else n), rest)
        | none => (none, c :: r)
      else (none, c :: r)

/-- The integer of decimal digits. -/
def decimalInteger (negative : Bool) (ds : List Char) : Except Fault Value :=
  if digitLimit < ds.length then .error (.integer (.unreadable ds.length))
  else
    let n : Int := ofDigits 10 ds
    .ok (.integer (if negative then -n else n))

/-- A decimal behind its sign. -/
def decimal (negative : Bool) (cs : List Char) : Except Fault (Value × List Char) := do
  match whole? cs with
  | none => throw .invalidValue
  | some (ds, r) => do
      let (places, r) := fraction r
      let (power, r) := exponent r
      if places.isNone && power.isNone then return (← decimalInteger negative ds, r)
      let fs := places.getD []
      let shift := power.getD 0 - fs.length
      return (.number (Binary64.ofDecimal negative (ofDigits 10 (ds ++ fs)) shift), r)

/-- One of the words for what is no finite number. -/
def special? (negative : Bool) : List Char → Option (Value × List Char)
  | 'i' :: 'n' :: 'f' :: r => some (.number (.infinite negative), r)
  | 'n' :: 'a' :: 'n' :: r => some (.number .nan, r)
  | _ => none

/-- An integer to the given base. -/
def basedInteger? (base : Nat) (cs : List Char) : Option (Value × List Char) :=
  (digits? (isDigitOf base) cs).map fun (ds, r) => (.integer (ofDigits base ds), r)

/-- An integer to the base that is marked in front of it. -/
def marked? : List Char → Option (Value × List Char)
  | '0' :: 'x' :: r => basedInteger? 16 r
  | '0' :: 'o' :: r => basedInteger? 8 r
  | '0' :: 'b' :: r => basedInteger? 2 r
  | _ => none

/-- A number. -/
def number (cs : List Char) : Except Fault (Value × List Char) :=
  match marked? cs with
  | some found => .ok found
  | none =>
      let (negative, r) := Binary64.readSign cs
      match special? negative r with
      | some found => .ok found
      | none => decimal negative r

/-! ### Dates and times -/

/-- The number of two digits. -/
def twoDigits? (a b : Char) : Option Nat :=
  if a.isDigit && b.isDigit then some (ofDigits 10 [a, b]) else none

/-- A date, or what is none only because its month is shorter or there is no such year. -/
def day? : List Char → Option (Day × List Char)
  | a :: b :: c :: d :: '-' :: e :: f :: '-' :: g :: h :: r => do
      let century ← twoDigits? a b
      let year ← twoDigits? c d
      let month ← twoDigits? e f
      let day ← twoDigits? g h
      if 1 ≤ month ∧ month ≤ 12 ∧ 1 ≤ day ∧ day ≤ 31 then
        some (⟨century * 100 + year, month, day⟩, r)
      else none
  | _ => none

/-- The microseconds behind the seconds of a time; digits beyond the sixth are left out. -/
def micros : List Char → Nat × List Char
  | '.' :: r =>
      let ds := r.takeWhile Char.isDigit
      if ds.isEmpty then (0, '.' :: r)
      else
        let six := ds.take 6
        (ofDigits 10 (six ++ List.replicate (6 - six.length) '0'), r.dropWhile Char.isDigit)
  | r => (0, r)

/-- Hours and minutes. -/
def hourMinute? : List Char → Option (Nat × Nat × List Char)
  | a :: b :: ':' :: c :: d :: r => do
      let hour ← twoDigits? a b
      let minute ← twoDigits? c d
      if hour < 24 ∧ minute < 60 then some (hour, minute, r) else none
  | _ => none

/-- A time. -/
def clock? (cs : List Char) : Option (Clock × List Char) := do
  let (hour, minute, r) ← hourMinute? cs
  match r with
  | ':' :: a :: b :: r =>
      let second ← twoDigits? a b
      let (micro, r) := micros r
      if second < 60 then some (⟨hour, minute, second, micro⟩, r) else none
  | _ => none

/-- An offset from the universal time in minutes, which may be absent. -/
def offset (cs : List Char) : Option Int × List Char :=
  match cs with
  | [] => (none, [])
  | c :: r =>
      if c == 'Z' || c == 'z' then (some 0, r)
      else if c == '+' || c == '-' then
        match hourMinute? r with
        | some (hour, minute, rest) =>
            let minutes : Int := hour * 60 + minute
            (some (if c == '-' then -minutes else minutes), rest)
        | none => (none, c :: r)
      else (none, c :: r)

/-- The time behind a date, if there is one. -/
def clockAfterDay? : List Char → Option (Clock × List Char)
  | [] => none
  | c :: r => if c == 'T' || c == 't' || c == ' ' then clock? r else none

/-- A date with the time behind it, if there is one. -/
def dayAndClock (day : Day) (cs : List Char) : Moment × List Char :=
  match clockAfterDay? cs with
  | some (clock, r) =>
      let (zone, r) := offset r
      (.dateTime day clock zone, r)
  | none => (.date day, cs)

/-- A date, a time, or both; `none` if the text does not begin like one. -/
def moment? (cs : List Char) : Option (Except Fault (Moment × List Char)) :=
  match day? cs with
  | some (day, r) => some (if day.isValid then .ok (dayAndClock day r) else .error .invalidMoment)
  | none => (clock? cs).map fun (clock, r) => .ok (.time clock, r)

end Toml

end AbiBridge
