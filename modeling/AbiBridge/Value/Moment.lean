/-!
Dates and times.

A `Moment` is a date, a time of day, or both together with or without an offset from the
universal time. `isoText` is the international form; `describe` is the one of messages.
-/

namespace AbiBridge

/-- A day of the calendar. -/
structure Day where
  year : Nat
  month : Nat
  day : Nat
  deriving DecidableEq, Repr

namespace Day

/-- Whether a year has a leap day. -/
def isLeap (year : Nat) : Bool := year % 4 = 0 && (year % 100 != 0 || year % 400 = 0)

/-- How many days a month has. -/
def daysInMonth (year month : Nat) : Nat :=
  if month = 2 then (if isLeap year then 29 else 28)
  else if [4, 6, 9, 11].contains month then 30 else 31

/-- Whether the day exists. -/
def isValid (d : Day) : Bool :=
  1 ≤ d.year && d.year ≤ 9999 && 1 ≤ d.month && d.month ≤ 12 && 1 ≤ d.day &&
    d.day ≤ daysInMonth d.year d.month

end Day

/-- A time of day, to the microsecond. -/
structure Clock where
  hour : Nat
  minute : Nat
  second : Nat
  micro : Nat
  deriving DecidableEq, Repr

/-- A date, a time, or both. -/
inductive Moment where
  | date (day : Day)
  | time (clock : Clock)
  /-- A date with a time, and the offset in minutes from the universal time. -/
  | dateTime (day : Day) (clock : Clock) (offset : Option Int)
  deriving DecidableEq, Repr

/-- A number in at least `width` digits. -/
def paddedText (width n : Nat) : String :=
  let digits := Nat.toDigits 10 n
  String.ofList (List.replicate (width - digits.length) '0' ++ digits)

namespace Day

/-- The day in the international form. -/
def isoText (d : Day) : String :=
  paddedText 4 d.year ++ "-" ++ paddedText 2 d.month ++ "-" ++ paddedText 2 d.day

/-- The numbers of a day. -/
def numbers (d : Day) : List Nat := [d.year, d.month, d.day]

end Day

namespace Clock

/-- The time in the international form; microseconds are left out if there are none. -/
def isoText (c : Clock) : String :=
  let fraction := if c.micro = 0 then "" else "." ++ paddedText 6 c.micro
  paddedText 2 c.hour ++ ":" ++ paddedText 2 c.minute ++ ":" ++ paddedText 2 c.second ++ fraction

/-- The numbers of a time, without what is zero behind the minutes. -/
def numbers (c : Clock) : List Nat :=
  if c.micro != 0 then [c.hour, c.minute, c.second, c.micro]
  else if c.second != 0 then [c.hour, c.minute, c.second]
  else [c.hour, c.minute]

end Clock

namespace Moment

/-- The offset in the international form. -/
def offsetText (minutes : Int) : String :=
  let n := minutes.natAbs
  (if minutes < 0 then "-" else "+") ++ paddedText 2 (n / 60) ++ ":" ++ paddedText 2 (n % 60)

/-- The moment in the international form. -/
def isoText : Moment → String
  | date day => day.isoText
  | time clock => clock.isoText
  | dateTime day clock offset =>
      day.isoText ++ "T" ++ clock.isoText ++ offset.elim "" offsetText

/-- The description of an offset: whole days, rounded down, and the seconds beyond them. -/
def describeOffset (minutes : Int) : String :=
  if minutes = 0 then "datetime.timezone.utc"
  else
    let days := minutes.fdiv 1440
    let seconds := minutes.fmod 1440 * 60
    let dayPart := if days = 0 then [] else ["days=" ++ toString days]
    let secondPart := if seconds = 0 then [] else ["seconds=" ++ toString seconds]
    "datetime.timezone(datetime.timedelta(" ++ ", ".intercalate (dayPart ++ secondPart) ++ "))"

/-- The description of a moment: its kind with its numbers. -/
def describe : Moment → String
  | date day => "datetime.date(" ++ ", ".intercalate (day.numbers.map fun n => toString n) ++ ")"
  | time clock =>
      "datetime.time(" ++ ", ".intercalate (clock.numbers.map fun n => toString n) ++ ")"
  | dateTime day clock offset =>
      let zone := match offset with
        | none => []
        | some minutes => ["tzinfo=" ++ describeOffset minutes]
      let numbers := (day.numbers ++ clock.numbers).map fun n => toString n
      "datetime.datetime(" ++ ", ".intercalate (numbers ++ zone) ++ ")"

end Moment

end AbiBridge
