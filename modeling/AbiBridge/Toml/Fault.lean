import AbiBridge.Number.Integer
import AbiBridge.Text.Quoted

/-!
Why a text is no document.

A `Fault` is the first one that is met in the order of the text. An integer that is too long is
one of them although the text obeys the rules of the language.
-/

namespace AbiBridge

open Text

/-- A key: the names from the root of the document. -/
abbrev Key := List String

namespace Toml

/-- Why a text is no document. -/
inductive Fault where
  /-- A line begins with a character that no statement begins with. -/
  | invalidStatement
  /-- There is more than a comment behind a statement. -/
  | lineNotEnded
  /-- A control character stands in a comment or in a text in apostrophes. -/
  | invalidCharacter (c : Char)
  /-- A control character stands in a text in double quotes. -/
  | illegalCharacter (c : Char)
  /-- A text in apostrophes does not end. -/
  | quotesExpected (quotes : String)
  /-- A text in double quotes does not end. -/
  | textNotClosed
  /-- A backslash opens no escape. -/
  | strayBackslash
  /-- An escape has too few hexadecimal digits. -/
  | invalidDigits
  /-- The digits of an escape are no character's. -/
  | notCharacter
  /-- There is no name in a key. -/
  | nameExpected
  /-- No equals sign stands behind a key. -/
  | equalsExpected
  /-- There is no value. -/
  | invalidValue
  /-- There is no such date. -/
  | invalidMoment
  /-- A list does not go on or end. -/
  | listNotClosed
  /-- A table on one line does not go on or end. -/
  | tableNotClosed
  /-- The header of a table does not end. -/
  | headerNotClosed
  /-- The header of an item does not end. -/
  | itemHeaderNotClosed
  /-- A header opens a table a second time. -/
  | declaredTwice (key : Key)
  /-- Something is to be added to what its own value gives completely. -/
  | immutable (key : Key)
  /-- A dotted key runs through a table with a header. -/
  | redefined (key : Key)
  /-- A name occurs twice in a table on one line. -/
  | duplicateName (name : String)
  /-- There is a value already, or one that is no table. -/
  | overwritten
  /-- An integer cannot be read. -/
  | integer (fault : IntegerFault)
  deriving DecidableEq, Repr

/-- A key in a message. -/
def keyText (key : Key) : String := tupleText (key.map quoted)

/-- The wording of a fault, without its place. -/
def Fault.message : Fault → String
  | invalidStatement => "Invalid statement"
  | lineNotEnded => "Expected newline or end of document after a statement"
  | invalidCharacter c => s!"Found invalid character {quoted (String.singleton c)}"
  | illegalCharacter c => s!"Illegal character {quoted (String.singleton c)}"
  | quotesExpected quotes => s!"Expected {quoted quotes}"
  | textNotClosed => "Unterminated string"
  | strayBackslash => "Unescaped '\\' in a string"
  | invalidDigits => "Invalid hex value"
  | notCharacter => "Escaped character is not a Unicode scalar value"
  | nameExpected => "Invalid initial character for a key part"
  | equalsExpected => "Expected '=' after a key in a key/value pair"
  | invalidValue => "Invalid value"
  | invalidMoment => "Invalid date or datetime"
  | listNotClosed => "Unclosed array"
  | tableNotClosed => "Unclosed inline table"
  | headerNotClosed => "Expected ']' at the end of a table declaration"
  | itemHeaderNotClosed => "Expected ']]' at the end of an array declaration"
  | declaredTwice key => s!"Cannot declare {keyText key} twice"
  | immutable key => s!"Cannot mutate immutable namespace {keyText key}"
  | redefined key => s!"Cannot redefine namespace {keyText key}"
  | duplicateName name => s!"Duplicate inline table key {quoted name}"
  | overwritten => "Cannot overwrite a value"
  | integer fault => fault.message

end Toml

end AbiBridge
