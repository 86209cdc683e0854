import AbiBridge.Name
import AbiBridge.Text.Blank

/-!
Tokens of a type's text.

The text of a type is made of double colons, identifiers of ASCII letters, digits and
underscores, and the six signs `&`, `<`, `>`, `,`, `[` and `]`. Blanks may stand before and
between tokens, and after the last one. `tokenize` splits a text into its tokens, the longest
identifier first, or reports the character at which no token can be read; that character is the
first blank before the place, if blanks were skipped to get there.

* `next?_length`: a token takes at least one character, which ends the splitting.
-/

namespace AbiBridge

open Text

/-- A token of the text of a type. -/
inductive Token where
  /-- The separator of a path. -/
  | doubleColon
  /-- An identifier. -/
  | name (text : String)
  | ampersand
  | less
  | greater
  | comma
  | openBracket
  | closeBracket
  deriving DecidableEq, Repr

namespace Token

/-- A token as it is written. -/
def text : Token → String
  | doubleColon => "::"
  | name text => text
  | ampersand => "&"
  | less => "<"
  | greater => ">"
  | comma => ","
  | openBracket => "["
  | closeBracket => "]"

/-- The token at the head of a text, with the rest of the text. -/
def next? : List Char → Option (Token × List Char)
  | ':' :: ':' :: r => some (doubleColon, r)
  | '&' :: r => some (ampersand, r)
  | '<' :: r => some (less, r)
  | '>' :: r => some (greater, r)
  | ',' :: r => some (comma, r)
  | '[' :: r => some (openBracket, r)
  | ']' :: r => some (closeBracket, r)
  | c :: r =>
      if Name.isStart c then
        some (name (String.ofList (c :: r.takeWhile Name.isContinue)), r.dropWhile Name.isContinue)
      else none
  | [] => none

/-- A token takes at least one character. -/
theorem next?_length {cs rest : List Char} {t : Token} (h : next? cs = some (t, rest)) :
    rest.length < cs.length := by
  rw [next?.eq_def] at h
  split at h
  · cases h
    exact Nat.lt_succ_of_lt (Nat.lt_succ_self _)
  iterate 6
    · cases h
      exact Nat.lt_succ_self _
  · split at h
    · cases h
      exact Nat.lt_succ_of_le (List.dropWhile_sublist Name.isContinue).length_le
    · cases h
  · cases h

/-- The tokens of a text without trailing blanks, or the character at which there is none. -/
def scan (cs : List Char) : Except Char (List Token) :=
  match cs with
  | [] => .ok []
  | c :: r =>
      match h : next? ((c :: r).dropWhile isBlank) with
      | none => .error c
      | some (t, rest) => do
          have : rest.length < (c :: r).length :=
            Nat.lt_of_lt_of_le (next?_length h) (List.dropWhile_sublist isBlank).length_le
          let ts ← scan rest
          return t :: ts
  termination_by cs.length
  decreasing_by exact this

/-- The tokens of a text, or the character at which there is none. -/
def tokenize (text : String) : Except Char (List Token) := scan (trimEnd text.toList)

end Token

end AbiBridge
