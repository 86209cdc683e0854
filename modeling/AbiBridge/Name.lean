/-!
Names in the native language.

A path is a list of segments joined by double colons. `Name.segments` splits a path, from left to
right, and `Name.baseName` is its last segment. An identifier is a letter or underscore of ASCII
followed by letters, digits and underscores, and a single line feed may stand behind it. A name
may be spliced into a wrapper if it is an identifier and no keyword; in a path, the segments
before the last may also be one of the qualifiers `crate`, `self` and `super`.
-/

namespace AbiBridge

namespace Name

/-! ### Paths -/

/-- The pieces of a text between the double colons, from left to right. -/
def split : List Char → List (List Char)
  | [] => [[]]
  | ':' :: ':' :: r => [] :: split r
  | c :: r =>
      match split r with
      | [] => [[c]]
      | s :: ss => (c :: s) :: ss

/-- Every text has a piece. -/
theorem split_ne_nil (cs : List Char) : split cs ≠ [] := by
  fun_cases split cs <;> simp_all

/-- The segments of a path. -/
def segments (path : String) : List String := (split path.toList).map String.ofList

/-- The last segment of a path. -/
def baseName (path : String) : String := (segments path).getLastD ""

/-! ### Identifiers -/

/-- Whether an identifier may begin with a character. -/
def isStart (c : Char) : Bool := c.isAlpha || c == '_'

/-- Whether an identifier may go on with a character. -/
def isContinue (c : Char) : Bool := c.isAlphanum || c == '_'

/-- Whether the characters are a letter or underscore followed by letters, digits and
underscores. -/
def isWord : List Char → Bool
  | [] => false
  | c :: r => isStart c && r.all isContinue

/-- The characters without a single line feed at the end. -/
def dropNewline (cs : List Char) : List Char :=
  if cs.getLast? = some '\n' then cs.dropLast else cs

/-- Whether a text is an identifier, up to a single line feed at its end. -/
def isIdentifier (name : String) : Bool := isWord (dropNewline name.toList)

/-- The keywords of the native language, those it reserves included, and the underscore, which
is no name of a value either. -/
def keywords : List String :=
  ["_", "abstract", "as", "async", "await", "become", "box", "break", "const", "continue",
    "crate", "do", "dyn", "else", "enum", "extern", "false", "final", "fn", "for", "if",
    "impl", "in", "let", "loop", "macro", "match", "mod", "move", "mut", "override", "priv",
    "pub", "ref", "return", "self", "Self", "static", "struct", "super", "trait", "true",
    "try", "type", "typeof", "unsafe", "unsized", "use", "virtual", "where", "while", "yield"]

/-- The keywords that may stand in a path before its last segment. -/
def pathQualifiers : List String := ["crate", "self", "super"]

end Name

/-! ### Which names may be spliced -/

/-- What a name is used for. -/
inductive NameRole where
  | functionName
  | exportedSymbol
  | structName
  | enumName
  | enumVariant
  | argumentName
  deriving DecidableEq, Repr

namespace NameRole

/-- The role in words. -/
def text : NameRole → String
  | functionName => "function name"
  | exportedSymbol => "exported symbol name"
  | structName => "struct name"
  | enumName => "enum name"
  | enumVariant => "enum variant"
  | argumentName => "argument name"

end NameRole

/-- Why a name may not be spliced into a wrapper. -/
inductive NameFault where
  /-- The name is no identifier. -/
  | malformed (role : NameRole) (name : String)
  /-- The name is a keyword. -/
  | keyword (role : NameRole) (name : String)
  deriving DecidableEq, Repr

namespace NameFault

/-- The wording of a fault. -/
def message : NameFault → String
  | malformed role name =>
      let what := role.text
      s!"Invalid {what}: '{name}'"
  | keyword role name =>
      let what := role.text
      s!"Invalid {what}: '{name}' is a Rust keyword"

end NameFault

namespace Name

/-- Accepts the identifiers that are no keywords. -/
def check (role : NameRole) (name : String) : Except NameFault Unit :=
  if !isIdentifier name then throw (.malformed role name)
  else if keywords.contains name then throw (.keyword role name)
  else pure ()

/-- Accepts a path given by its segments. -/
def checkSegments (role : NameRole) : List String → Except NameFault Unit
  | [] => check role ""
  | [last] => check role last
  | segment :: rest => do
      if !pathQualifiers.contains segment then check role segment
      checkSegments role rest

/-- Accepts the paths whose last segment is a name and whose other segments are names or
qualifiers. -/
def checkPath (role : NameRole) (path : String) : Except NameFault Unit :=
  checkSegments role (segments path)

end Name

end AbiBridge
