/-!
Messages to the user.

A message has a level, and the journal keeps those that are no less urgent than its threshold, in
order. The helpers put the sign of their level in front of the text.
-/

namespace AbiBridge

/-- How urgent a message is. -/
inductive Level where
  | debug
  | info
  | success
  | warning
  | error
  deriving DecidableEq, Repr

namespace Level

/-- The rank of a level; a higher one is more urgent. -/
def rank : Level → Nat
  | debug => 10
  | info => 20
  | success => 25
  | warning => 30
  | error => 40

/-- The name of a level. -/
def text : Level → String
  | debug => "DEBUG"
  | info => "INFO"
  | success => "SUCCESS"
  | warning => "WARNING"
  | error => "ERROR"

/-- The sign that stands in front of a message of the level. -/
def sign : Level → String
  | debug => ""
  | info => "ℹ️  "
  | success => "✅ "
  | warning => "⚠️  "
  | error => "❌ "

end Level

/-- A message with its level. -/
structure Note where
  level : Level
  message : String
  deriving DecidableEq, Repr

namespace Note

/-- A message with the sign of its level. -/
def ofText (level : Level) (text : String) : Note := ⟨level, level.sign ++ text⟩

end Note

/-- The messages so far, and the least urgent level that is kept. -/
structure Journal where
  threshold : Level := .info
  notes : List Note := []
  deriving DecidableEq, Repr

namespace Journal

/-- The journal with a message added, if it is urgent enough. -/
def add (j : Journal) (note : Note) : Journal :=
  if j.threshold.rank ≤ note.level.rank then { j with notes := j.notes ++ [note] } else j

/-- The journal with several messages added. -/
def addAll (j : Journal) (notes : List Note) : Journal := notes.foldl add j

/-- The journal with a text added at a level. -/
def log (j : Journal) (level : Level) (text : String) : Journal := j.add (.ofText level text)

end Journal

end AbiBridge
