import AbiBridge.Toml.Document
import AbiBridge.Toml.Scalar
import AbiBridge.Toml.Text

/-!
Documents from their text.

A document is a sequence of lines: headers of tables and of items of lists, assignments, comments
and empty lines. `Toml.parse` reads a whole text, in which a carriage return before a line feed
makes no difference, and `Toml.ofBytes` the text that bytes encode; both refuse what is no
document of version 1.0 of the language with the first fault in it.

A list or table that is nested in another one takes two calls for its opening bracket, and every
further item takes one call and has a comma. So a depth of little more than twice the length of
the text is enough. The nesting itself has no limit here, unlike the digits of an integer: how deep
a program can go before its stack is full is not a matter of the language.
-/

namespace AbiBridge

open Text

namespace Toml

/-! ### Between the values -/

/-- The characters behind blanks, line feeds and comments. -/
def skipFiller : (inComment : Bool) → List Char → Except Fault (List Char)
  | _, [] => .ok []
  | true, c :: r =>
      if c == '\n' then skipFiller false r
      else if isControl c then .error (.invalidCharacter c)
      else skipFiller true r
  | false, c :: r =>
      if isFiller c then skipFiller false r
      else if c == '#' then skipFiller true r
      else .ok (c :: r)

/-- The characters of the next line, if nothing but blanks and a comment are left in this one. -/
def nextLine : (inComment : Bool) → List Char → Except Fault (List Char)
  | _, [] => .ok []
  | true, c :: r =>
      if c == '\n' then .ok r
      else if isControl c then .error (.invalidCharacter c)
      else nextLine true r
  | false, c :: r =>
      if c == '\n' then .ok r
      else if isSpace c then nextLine false r
      else if c == '#' then nextLine true r
      else .error .lineNotEnded

/-! ### Keys -/

/-- Whether a key may be written without quotes if it is made of such characters. -/
def isBare (c : Char) : Bool := c.isAlphanum || c == '-' || c == '_'

/-- One name of a key. -/
def keyPart : List Char → Except Fault (String × List Char)
  | [] => .error .nameExpected
  | c :: r =>
      if isBare c then
        .ok (String.ofList ((c :: r).takeWhile isBare), (c :: r).dropWhile isBare)
      else if isQuote c then shortText c r
      else .error .nameExpected

/-- A key with the blanks behind it: names with dots between them, at most `depth` of them. -/
def key : (depth : Nat) → List Char → Except Fault (Key × List Char)
  | 0, _ => .error .nameExpected
  | depth + 1, cs => do
      let (part, r) ← keyPart cs
      match r.dropWhile isSpace with
      | '.' :: r => do
          let (parts, r) ← key depth (r.dropWhile isSpace)
          return (part :: parts, r)
      | r => return ([part], r)

/-! ### Values -/

mutual

/-- A value, nested at most `depth` calls deep. -/
def value : (depth : Nat) → List Char → Except Fault (Value × List Char)
  | 0, _ => .error .invalidValue
  | _ + 1, [] => .error .invalidValue
  | depth + 1, c :: r =>
      if isQuote c then (text c r).map fun (s, rest) => (.text s, rest)
      else if c == '[' then (items depth r).map fun (vs, rest) => (.list vs, rest)
      else if c == '\x7b' then
        match r.dropWhile isSpace with
        | '\x7d' :: rest => .ok (.table [], rest)
        | r => (entries depth {} r).map fun (t, rest) => (.table t.entries, rest)
      else match c :: r with
        | 't' :: 'r' :: 'u' :: 'e' :: rest => .ok (.boolean true, rest)
        | 'f' :: 'a' :: 'l' :: 's' :: 'e' :: rest => .ok (.boolean false, rest)
        | cs =>
            match moment? cs with
            | some read => read.map fun (m, rest) => (.moment m, rest)
            | none => number cs

/-- The items of a list with the closing bracket. -/
def items : (depth : Nat) → List Char → Except Fault (List Value × List Char)
  | 0, _ => .error .listNotClosed
  | depth + 1, cs => do
      match ← skipFiller false cs with
      | ']' :: r => return ([], r)
      | cs => do
          let (v, r) ← value depth cs
          match ← skipFiller false r with
          | ']' :: r => return ([v], r)
          | ',' :: r => do
              let (vs, r) ← items depth r
              return (v :: vs, r)
          | _ => throw .listNotClosed

/-- The entries of a table on one line with the closing brace. -/
def entries : (depth : Nat) → InlineTable → List Char → Except Fault (InlineTable × List Char)
  | 0, _, _ => .error .tableNotClosed
  | depth + 1, t, cs => do
      let (k, r) ← key (cs.length + 1) cs
      match r with
      | '=' :: r => do
          let (v, r) ← value depth (r.dropWhile isSpace)
          let t ← t.assign k v
          match r.dropWhile isSpace with
          | '\x7d' :: r => return (t, r)
          | ',' :: r => entries depth t (r.dropWhile isSpace)
          | _ => throw .tableNotClosed
      | _ => throw .equalsExpected

end

/-! ### Lines -/

/-- Reads an assignment. -/
def assignment (d : Document) (cs : List Char) : Except Fault (Document × List Char) := do
  let (k, r) ← key (cs.length + 1) cs
  match r with
  | '=' :: r => do
      let (v, r) ← value (2 * r.length + 2) (r.dropWhile isSpace)
      return (← d.assign k v, r)
  | _ => throw .equalsExpected

/-- Reads the header of a table, behind its bracket. -/
def tableHeader (d : Document) (cs : List Char) : Except Fault (Document × List Char) := do
  let (k, r) ← key (cs.length + 1) (cs.dropWhile isSpace)
  let d ← d.openTable k
  match r with
  | ']' :: r => return (d, r)
  | _ => throw .headerNotClosed

/-- Reads the header of an item, behind its brackets. -/
def itemHeader (d : Document) (cs : List Char) : Except Fault (Document × List Char) := do
  let (k, r) ← key (cs.length + 1) (cs.dropWhile isSpace)
  let d ← d.openItem k
  match r with
  | ']' :: ']' :: r => return (d, r)
  | _ => throw .itemHeaderNotClosed

/-- Reads a line, if there is anything in it. -/
def statement (d : Document) (cs : List Char) : Except Fault (Document × List Char) :=
  match cs with
  | [] => .ok (d, [])
  | '[' :: '[' :: r => itemHeader d.settle r
  | '[' :: r => tableHeader d.settle r
  | c :: r =>
      if isBare c || isQuote c then assignment d (c :: r)
      else if c == '\n' || c == '#' then .ok (d, c :: r)
      else .error .invalidStatement

/-- Reads the lines of a document, at most `count` of them. -/
def lines : (count : Nat) → Document → List Char → Except Fault Document
  | _, d, [] => .ok d
  | 0, _, _ :: _ => .error .lineNotEnded
  | count + 1, d, c :: r => do
      let (d, r) ← statement d ((c :: r).dropWhile isSpace)
      lines count d (← nextLine false r)

/-! ### Texts -/

/-- The characters without the carriage returns before line feeds. -/
def unifyNewlines : List Char → List Char
  | [] => []
  | '\r' :: '\n' :: r => '\n' :: unifyNewlines r
  | c :: r => c :: unifyNewlines r

/-- The table that a text writes down. -/
def parse (s : String) : Except Fault Table :=
  let cs := unifyNewlines s.toList
  (lines (cs.length + 1) {} cs).map Document.root

/-- Why bytes are no document. -/
inductive DocumentFault where
  /-- The bytes are no text. -/
  | notText
  /-- The text is no document. -/
  | notDocument (fault : Fault)
  deriving DecidableEq, Repr

/-- The table that bytes write down. -/
def ofBytes (content : ByteArray) : Except DocumentFault Table :=
  match String.fromUTF8? content with
  | none => .error .notText
  | some s => (parse s).mapError .notDocument

end Toml

end AbiBridge
