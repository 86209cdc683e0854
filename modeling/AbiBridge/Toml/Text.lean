import AbiBridge.Text.Hex
import AbiBridge.Toml.Fault

/-!
Texts in documents.

A text stands between double quotes, with escapes, or between apostrophes, without. Three quotes
on either side allow line feeds in it; then a line feed behind the opening quotes is left out, up
to two more quotes may stand before the closing ones, and a backslash at the end of a line joins
it with the next one. No control character stands for itself but the tab and, in the long forms,
the line feed.

Every reader gives a value and the characters behind it, or the first fault.
-/

namespace AbiBridge

open Text

namespace Toml

/-- Whether a character is a blank within a line. -/
def isSpace (c : Char) : Bool := c == ' ' || c == '\t'

/-- Whether a character is a blank or a line feed. -/
def isFiller (c : Char) : Bool := isSpace c || c == '\n'

/-- Whether a character is a control character other than the tab. -/
def isControl (c : Char) : Bool := (c.toNat < 0x20 && c != '\t') || c.toNat = 0x7F

/-- The character of a code point, if it is that of a character. -/
def scalar? (n : Nat) : Option Char :=
  if n < 0xD800 ∨ (0xDFFF < n ∧ n < 0x110000) then some (Char.ofNat n) else none

/-- The character that a letter behind a backslash stands for. -/
def letterEscape? (c : Char) : Option Char :=
  if c == 'b' then some (Char.ofNat 0x08)
  else if c == 't' then some '\t'
  else if c == 'n' then some '\n'
  else if c == 'f' then some (Char.ofNat 0x0C)
  else if c == 'r' then some '\r'
  else if c == doubleQuote || c == backslash then some c
  else none

/-- The number that is written in exactly `width` hexadecimal digits. -/
def hexNumber? (width : Nat) (cs : List Char) : Option Nat :=
  let digits := cs.take width
  if digits.length < width then none else ofHexDigits? digits

/-- The character whose code point is written in a number of hexadecimal digits. -/
def digitEscape (width : Nat) (cs : List Char) : Except Fault (Char × List Char) :=
  match hexNumber? width cs with
  | none => .error .invalidDigits
  | some n =>
      match scalar? n with
      | none => .error .notCharacter
      | some c => .ok (c, cs.drop width)

/-- The character of an escape, behind its backslash. -/
def escape : List Char → Except Fault (Char × List Char)
  | [] => .error .strayBackslash
  | c :: r =>
      if c == 'u' then digitEscape 4 r
      else if c == 'U' then digitEscape 8 r
      else
        match letterEscape? c with
        | none => .error .strayBackslash
        | some d => .ok (d, r)

theorem length_digitEscape {cs rest : List Char} {width : Nat} {d : Char}
    (h : digitEscape width cs = .ok (d, rest)) : rest.length ≤ cs.length := by
  rw [digitEscape] at h
  split at h
  · cases h
  split at h
  · cases h
  cases h
  simp

theorem length_escape {cs rest : List Char} {d : Char} (h : escape cs = .ok (d, rest)) :
    rest.length < cs.length := by
  cases cs with
  | nil => cases h
  | cons c r =>
      rw [List.length_cons]
      rw [escape] at h
      split at h
      · exact Nat.lt_succ_of_le (length_digitEscape h)
      split at h
      · exact Nat.lt_succ_of_le (length_digitEscape h)
      split at h
      · cases h
      cases h
      exact Nat.lt_succ_self _

/-- The rest of a text in double quotes. -/
def basicText (cs : List Char) : Except Fault (List Char × List Char) :=
  match cs with
  | [] => .error .textNotClosed
  | c :: r =>
      if c == doubleQuote then .ok ([], r)
      else if c == backslash then
        match h : escape r with
        | .error fault => .error fault
        | .ok (d, rest) =>
            have : rest.length < r.length := length_escape h
            (basicText rest).map fun (s, out) => (d :: s, out)
      else if isControl c then .error (.illegalCharacter c)
      else (basicText r).map fun (s, out) => (c :: s, out)
  termination_by cs.length

/-- Up to two quotes that belong to a text although they follow three closing ones. -/
def extraQuotes (quote : Char) : List Char → List Char × List Char
  | [] => ([], [])
  | c :: r =>
      if c == quote then
        match r with
        | [] => ([quote], [])
        | d :: q => if d == quote then ([quote, quote], q) else ([quote], d :: q)
      else ([], c :: r)

/-- The characters behind three quotes, if the text begins with them. -/
def afterQuotes? (quote : Char) : List Char → Option (List Char)
  | c :: d :: e :: r => if c == quote && d == quote && e == quote then some r else none
  | _ => none

/-- The characters of the next line that is not empty, behind a backslash at the end of one; at
the end of the whole text there are none. -/
def joinLines? : List Char → Option (List Char)
  | [] => none
  | c :: r =>
      if c == '\n' then some (r.dropWhile isFiller)
      else if isSpace c then
        match r.dropWhile isSpace with
        | d :: q => if d == '\n' then some (q.dropWhile isFiller) else none
        | [] => some []
      else none

theorem length_joinLines? {cs rest : List Char} (h : joinLines? cs = some rest) :
    rest.length < cs.length := by
  have hdrop (p : Char → Bool) (l : List Char) : (l.dropWhile p).length ≤ l.length :=
    (List.dropWhile_sublist p).length_le
  cases cs with
  | nil => simp [joinLines?] at h
  | cons c r =>
      simp only [joinLines?] at h
      split at h
      · have := hdrop isFiller r
        simp only [Option.some.injEq] at h
        rw [← h, List.length_cons]
        omega
      · split at h
        · split at h
          · next d q hq =>
            split at h
            · have h1 := hdrop isFiller q
              have h2 := hdrop isSpace r
              rw [hq, List.length_cons] at h2
              simp only [Option.some.injEq] at h
              rw [← h, List.length_cons]
              omega
            · simp at h
          · simp only [Option.some.injEq] at h
            rw [← h, List.length_nil, List.length_cons]
            omega
        · simp at h

/-- The rest of a text in three double quotes. -/
def longBasicText (cs : List Char) : Except Fault (List Char × List Char) :=
  match cs with
  | [] => .error .textNotClosed
  | c :: r =>
      match afterQuotes? doubleQuote (c :: r) with
      | some rest => .ok (extraQuotes doubleQuote rest)
      | none =>
          if c == backslash then
            match hj : joinLines? r with
            | some rest =>
                have : rest.length < r.length := length_joinLines? hj
                longBasicText rest
            | none =>
                match h : escape r with
                | .error fault => .error fault
                | .ok (d, rest) =>
                    have : rest.length < r.length := length_escape h
                    (longBasicText rest).map fun (s, out) => (d :: s, out)
          else if isControl c && c != '\n' then .error (.illegalCharacter c)
          else (longBasicText r).map fun (s, out) => (c :: s, out)
  termination_by cs.length

/-- The rest of a text in apostrophes. -/
def literalText (cs : List Char) : Except Fault (List Char × List Char) :=
  let body := cs.takeWhile (· != apostrophe)
  match cs.dropWhile (· != apostrophe), body.find? isControl with
  | [], _ => .error (.quotesExpected "'")
  | _ :: _, some c => .error (.invalidCharacter c)
  | _ :: rest, none => .ok (body, rest)

/-- The characters up to the next three apostrophes, and those behind them. -/
def untilApostrophes? : List Char → Option (List Char × List Char)
  | [] => none
  | c :: r =>
      match afterQuotes? apostrophe (c :: r) with
      | some rest => some ([], rest)
      | none => (untilApostrophes? r).map fun (s, rest) => (c :: s, rest)

/-- The rest of a text in three apostrophes. -/
def longLiteralText (cs : List Char) : Except Fault (List Char × List Char) :=
  match untilApostrophes? cs with
  | none => .error (.quotesExpected "'''")
  | some (body, rest) =>
      match body.find? fun c => isControl c && c != '\n' with
      | some c => .error (.invalidCharacter c)
      | none =>
          let (extra, out) := extraQuotes apostrophe rest
          .ok (body ++ extra, out)

/-- The characters without a line feed in front. -/
def dropLineFeed : List Char → List Char
  | '\n' :: r => r
  | r => r

/-- Whether a text may begin with a character. -/
def isQuote (c : Char) : Bool := c == doubleQuote || c == apostrophe

/-- The rest of a text in one of the two short forms, behind its opening quote. -/
def shortText (quote : Char) (cs : List Char) : Except Fault (String × List Char) :=
  let read := if quote == doubleQuote then basicText cs else literalText cs
  read.map fun (s, rest) => (String.ofList s, rest)

/-- The rest of a text in one of the two long forms, behind its opening quotes. -/
def longText (quote : Char) (cs : List Char) : Except Fault (String × List Char) :=
  let body := dropLineFeed cs
  let read := if quote == doubleQuote then longBasicText body else longLiteralText body
  read.map fun (s, rest) => (String.ofList s, rest)

/-- The rest of a text in one of the four forms, behind its first quote. -/
def text (quote : Char) (cs : List Char) : Except Fault (String × List Char) :=
  match afterQuotes? quote (quote :: cs) with
  | some rest => longText quote rest
  | none => shortText quote cs

end Toml

end AbiBridge
