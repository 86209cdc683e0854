/-!
Integers as decimal text.

Where an integer is read from its decimal digits or written in them, it has at most `digitLimit`
of them; the sign does not count. `integerText` writes an integer.

* `integerText_eq_ok_iff`: the text is the usual one, and there is one up to the limit.
-/

namespace AbiBridge

/-- How many decimal digits an integer may have. -/
def digitLimit : Nat := 4300

/-- Why an integer cannot be read or written. -/
inductive IntegerFault where
  /-- It is written in more digits than may be read. -/
  | unreadable (digits : Nat)
  /-- It has more digits than may be written. -/
  | unwritable
  deriving DecidableEq, Repr

namespace IntegerFault

/-- What both wordings begin with. -/
def limitText : String := s!"Exceeds the limit ({digitLimit} digits) for integer string conversion"

/-- What both wordings end with. -/
def adviceText : String := "; use sys.set_int_max_str_digits() to increase the limit"

/-- The wording of a fault. -/
def message : IntegerFault → String
  | unreadable digits => s!"{limitText}: value has {digits} digits{adviceText}"
  | unwritable => s!"{limitText}{adviceText}"

end IntegerFault

/-- The decimal text of an integer. -/
def integerText (n : Int) : Except IntegerFault String :=
  if digitLimit < (toString n.natAbs).length then .error .unwritable else .ok (toString n)

theorem integerText_eq_ok_iff {n : Int} {s : String} :
    integerText n = .ok s ↔ (toString n.natAbs).length ≤ digitLimit ∧ toString n = s := by
  rw [integerText]
  split
  · next h => exact ⟨nofun, fun hs => absurd hs.1 (Nat.not_le_of_lt h)⟩
  · next h => rw [Except.ok.injEq, and_iff_right (Nat.le_of_not_lt h)]

end AbiBridge
