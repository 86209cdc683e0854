import AbiBridge.Text.Hex
import AbiBridge.Text.Printable

/-!
Quoted text, the form in which messages show a text of unknown content.

The quotes are apostrophes, unless the text holds an apostrophe and no double quote. The quote
and the backslash are escaped by a backslash, line feed, carriage return and tab by a letter,
and every other character that is not printable by its code point in two, four or eight
hexadecimal digits.
-/

namespace AbiBridge.Text

/-- The apostrophe, the usual quote of a quoted text. -/
def apostrophe : Char := '\x27'

/-- The double quote, which replaces the apostrophe around a text that holds one. -/
def doubleQuote : Char := '\x22'

/-- The backslash, which opens an escape. -/
def backslash : Char := '\x5c'

/-- The quote to be written around a text. -/
def quoteFor (cs : List Char) : Char :=
  if cs.contains apostrophe && !cs.contains doubleQuote then doubleQuote else apostrophe

/-- One character between the quotes `quote`. -/
def quotedChar (quote c : Char) : List Char :=
  if c == quote || c == backslash then [backslash, c]
  else if c == '\n' then [backslash, 'n']
  else if c == '\r' then [backslash, 'r']
  else if c == '\t' then [backslash, 't']
  else if isPrintable c then [c]
  else if c.toNat < 0x100 then backslash :: 'x' :: hexDigits 2 c.toNat
  else if c.toNat < 0x10000 then backslash :: 'u' :: hexDigits 4 c.toNat
  else backslash :: 'U' :: hexDigits 8 c.toNat

/-- A text between quotes, every character visible. -/
def quoted (s : String) : String :=
  let cs := s.toList
  let quote := quoteFor cs
  String.ofList (quote :: cs.flatMap (quotedChar quote) ++ [quote])

/-- Texts in parentheses and separated by commas, with a comma behind a lone one. -/
def tupleText : List String → String
  | [] => "()"
  | [x] => String.join ["(", x, ",)"]
  | xs => String.join ["(", ", ".intercalate xs, ")"]

/-- A list of quoted texts, in brackets and separated by commas. -/
def quotedList (xs : List String) : String :=
  "[" ++ ", ".intercalate (xs.map quoted) ++ "]"

end AbiBridge.Text
