import AbiBridge.Boundary.Basic
import AbiBridge.Boundary.Token
import AbiBridge.Text.Quoted

/-!
Types from their text.

The grammar, over tokens, is

    type ::= '&' 'mut' type | '&' type | '[' type ']' | path [ '<' type (',' type)* '>' ]
    path ::= identifier ('::' identifier)*

where a borrow is mutable whenever `mut` follows the ampersand. The path `Vec` is a run of its
one argument, the scalars and the declared enums take no arguments, and every other path is a
struct. `BoundaryType.parse` reads a whole text.

Each nested call of the reader is made on fewer tokens, so a depth of one more than the number of
tokens is enough for every text. Types may be nested to any depth; that a stack is full at some
depth is left out.
-/

namespace AbiBridge

open Text

/-- The declared enums with their variants, in declaration order. -/
abbrev EnumTable := List (String × List String)

/-- Why a text is not the text of a type. -/
inductive SyntaxFault where
  /-- No token begins at this character. -/
  | unexpectedCharacter (c : Char)
  /-- A type was to follow the last token. -/
  | unexpectedEnd
  /-- One token was to stand where there is another, or none. -/
  | expected (wanted : Token) (found : Option Token)
  /-- A path needs an identifier here. -/
  | expectedIdentifier (found : Option Token)
  /-- The type is complete and these tokens are left. -/
  | trailing (rest : List Token)
  /-- A run has one type of elements. -/
  | runArity
  /-- A scalar takes no arguments. -/
  | primitiveArguments (path : String)
  /-- An enum takes no arguments. -/
  | enumArguments (path : String)
  deriving DecidableEq, Repr

/-- A text that is no type's, with the reason. -/
structure TypeTextFault where
  /-- The whole text. -/
  text : String
  /-- What is wrong with it. -/
  cause : SyntaxFault
  deriving DecidableEq, Repr

namespace TypeTextFault

/-- A token as messages show it. -/
def tokenText : Option Token → String
  | none => "None"
  | some t => quoted t.text

/-- The wording of a fault. -/
def message (fault : TypeTextFault) : String :=
  let text := fault.text
  match fault.cause with
  | .unexpectedCharacter c =>
      let shown := quoted (String.ofList [c])
      s!"Unexpected character {shown} in type '{text}'"
  | .unexpectedEnd => s!"Unexpected end of type '{text}'"
  | .expected wanted found =>
      let sign := wanted.text
      let shown := tokenText found
      s!"Expected '{sign}' in type '{text}', found {shown}"
  | .expectedIdentifier found =>
      let shown := tokenText found
      s!"Expected identifier in type '{text}', found {shown}"
  | .trailing rest =>
      let shown := quotedList (rest.map Token.text)
      s!"Trailing tokens in type '{text}': {shown}"
  | .runArity => s!"Vec takes exactly one type argument in '{text}'"
  | .primitiveArguments path => s!"Primitive '{path}' cannot take type arguments"
  | .enumArguments path => s!"Enum '{path}' cannot take type arguments"

end TypeTextFault

namespace BoundaryType

/-! ### Reading tokens -/

/-- The segments of a path behind its first one. -/
def readSegments : List Token → Except SyntaxFault (List String × List Token)
  | .doubleColon :: .name s :: ts => do
      let (ss, rest) ← readSegments ts
      return (s :: ss, rest)
  | .doubleColon :: ts => throw (.expectedIdentifier ts.head?)
  | ts => pure ([], ts)

/-- A path. -/
def readPath : List Token → Except SyntaxFault (String × List Token)
  | .name s :: ts => do
      let (ss, rest) ← readSegments ts
      return ("::".intercalate (s :: ss), rest)
  | ts => throw (.expectedIdentifier ts.head?)

/-- The tokens behind the word `mut`, if the tokens begin with it. -/
def afterMut? : List Token → Option (List Token)
  | .name word :: ts => if word = "mut" then some ts else none
  | _ => none

/-- The type that a path with arguments stands for. -/
def ofPath (enums : EnumTable) (path : String) (params : List BoundaryType) :
    Except SyntaxFault BoundaryType :=
  if path = "Vec" then
    match params with
    | [elem] => pure (sequence elem)
    | _ => throw .runArity
  else if primitiveNames.contains path then
    match params with
    | [] => pure (primitive path)
    | _ => throw (.primitiveArguments path)
  else match enums.lookup path with
    | some variants =>
        match params with
        | [] => pure (enum path variants)
        | _ => throw (.enumArguments path)
    | none => pure (struct path params)

mutual

/-- A type at the head of the tokens, nested at most `depth` calls deep. -/
def readType (enums : EnumTable) :
    (depth : Nat) → List Token → Except SyntaxFault (BoundaryType × List Token)
  | 0, _ => throw .unexpectedEnd
  | _ + 1, [] => throw .unexpectedEnd
  | depth + 1, .ampersand :: ts =>
      match afterMut? ts with
      | some ts => do
          let (inner, rest) ← readType enums depth ts
          return (mutRef inner, rest)
      | none => do
          let (inner, rest) ← readType enums depth ts
          return (sharedRef inner, rest)
  | depth + 1, .openBracket :: ts => do
      let (elem, rest) ← readType enums depth ts
      match rest with
      | .closeBracket :: rest => pure (sequence elem, rest)
      | _ => throw (.expected .closeBracket rest.head?)
  | depth + 1, ts => do
      let (path, rest) ← readPath ts
      match rest with
      | .less :: rest => do
          let (params, rest) ← readArguments enums depth rest
          return (← ofPath enums path params, rest)
      | _ => return (← ofPath enums path [], rest)

/-- A list of arguments with the closing angle bracket behind it. -/
def readArguments (enums : EnumTable) :
    (depth : Nat) → List Token → Except SyntaxFault (List BoundaryType × List Token)
  | 0, _ => throw .unexpectedEnd
  | depth + 1, ts => do
      let (first, rest) ← readType enums depth ts
      match rest with
      | .comma :: rest => do
          let (others, rest) ← readArguments enums depth rest
          return (first :: others, rest)
      | .greater :: rest => pure ([first], rest)
      | _ => throw (.expected .greater rest.head?)

end

/-! ### Reading texts -/

/-- The type that all the tokens together are. -/
def ofTokens (enums : EnumTable) (ts : List Token) : Except SyntaxFault BoundaryType := do
  let (t, rest) ← readType enums (ts.length + 1) ts
  if rest.isEmpty then return t else throw (.trailing rest)

/-- The type of a text, names in `enums` being enums. -/
def parse (enums : EnumTable) (text : String) : Except TypeTextFault BoundaryType :=
  match Token.tokenize text with
  | .error c => throw ⟨text, .unexpectedCharacter c⟩
  | .ok ts => (ofTokens enums ts).mapError (⟨text, ·⟩)

end BoundaryType

end AbiBridge
