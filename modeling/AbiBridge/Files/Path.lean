/-!
Paths of files.

A path is written with slashes. Repeated slashes and the part `.` make no difference, the part
`..` stays as it is, and of the leading slashes exactly two are kept apart from one. Joining with
an absolute path gives that path. The empty path is written `.`.

* `join_assoc`: joining is associative.
-/

namespace AbiBridge

/-- Where a path begins. -/
inductive Anchor where
  /-- At the working directory. -/
  | relative
  /-- At the root. -/
  | root
  /-- At the root, written with two slashes. -/
  | doubleRoot
  deriving DecidableEq, Repr

namespace Anchor

/-- The slashes in front of the parts. -/
def text : Anchor → String
  | relative => ""
  | root => "/"
  | doubleRoot => "//"

/-- The anchor of a text with the given number of leading slashes. -/
def ofSlashes : Nat → Anchor
  | 0 => relative
  | 2 => doubleRoot
  | _ => root

end Anchor

/-- A path: its anchor and its parts. -/
structure Path where
  /-- Where the path begins. -/
  anchor : Anchor := .relative
  /-- The names on the way, from the outermost. -/
  parts : List String := []
  deriving DecidableEq, Repr

namespace Path

/-- The pieces of a text between the slashes. -/
def splitSlashes : List Char → List (List Char)
  | [] => [[]]
  | c :: r =>
      if c = '/' then [] :: splitSlashes r
      else match splitSlashes r with
        | [] => [[c]]
        | s :: ss => (c :: s) :: ss

/-- The path of a text. -/
def ofString (s : String) : Path :=
  let cs := s.toList
  let pieces := (splitSlashes cs).map String.ofList
  ⟨.ofSlashes (cs.takeWhile (· = '/')).length, pieces.filter fun p => p != "" && p != "."⟩

/-- A path as it is written. -/
def text (p : Path) : String :=
  if p.anchor = .relative ∧ p.parts = [] then "."
  else p.anchor.text ++ "/".intercalate p.parts

/-- Whether the null character, which no path on a disk has, is in a path. -/
def hasNull (p : Path) : Bool := p.parts.any fun part => part.toList.contains (Char.ofNat 0)

/-- Whether a path begins at the root. -/
def isAbsolute (p : Path) : Bool := p.anchor != .relative

/-- The second path as seen from the first one. -/
def join (p q : Path) : Path :=
  if q.isAbsolute then q else ⟨p.anchor, p.parts ++ q.parts⟩

/-- The path without its last part. -/
def parent (p : Path) : Path := ⟨p.anchor, p.parts.dropLast⟩

theorem join_assoc (p q r : Path) : (p.join q).join r = p.join (q.join r) := by
  simp only [join, isAbsolute]
  by_cases hq : q.anchor = .relative <;> by_cases hr : r.anchor = .relative <;> simp [hq, hr]

end Path

end AbiBridge
