import AbiBridge.Name
import AbiBridge.Text.Digit

/-!
Single arguments of the command line.

An argument is a word, an option, or the sign that only words follow. A long option may be
shortened as long as it is no other one's beginning, and may bring its value behind an equals
sign. What looks like a negative number or holds a space is a word although it begins with a dash.
-/

namespace AbiBridge

open Text

/-- An option of the command line. -/
inductive Switch where
  | help
  | version
  | output
  | unformatted
  | verbose
  deriving DecidableEq, Repr

namespace Switch

/-- The long form of an option, without the dashes. -/
def text : Switch → String
  | help => "help"
  | version => "version"
  | output => "out"
  | unformatted => "no-format"
  | verbose => "verbose"

/-- The options whose long form begins with the given characters; the one that is written in full
goes before the others. -/
def ofStart (switches : List Switch) (cs : List Char) : List Switch :=
  match switches.find? fun s => s.text.toList = cs with
  | some s => [s]
  | none => switches.filter fun s => cs.isPrefixOf s.text.toList

end Switch

/-- A single argument. -/
inductive Argument where
  | word (text : String)
  /-- The sign that only words follow. -/
  | separator
  /-- An option in its long form, with the value in the same argument. -/
  | switch (s : Switch) (value : Option String)
  /-- The short form of the option for help, with the characters behind the letter. -/
  | shortHelp (rest : List Char)
  /-- Something like an option that is none. -/
  | unknown
  /-- The beginning of several options. -/
  | ambiguous
  deriving DecidableEq, Repr

namespace Argument

/-- Whether the characters behind a dash are a number, up to a single line feed at its end. -/
def isNumber (cs : List Char) : Bool :=
  let body := Name.dropNewline cs
  let whole := body.takeWhile isDecimalDigit
  match body.dropWhile isDecimalDigit with
  | [] => !whole.isEmpty
  | c :: places => c == '.' && !places.isEmpty && places.all isDecimalDigit

/-- The argument of the characters behind two dashes, if they are no word. -/
def ofLong (switches : List Switch) (cs : List Char) : Argument :=
  let value := match cs.dropWhile (· != '=') with
    | [] => none
    | _ :: r => some (String.ofList r)
  match Switch.ofStart switches (cs.takeWhile (· != '=')) with
  | [] => .unknown
  | [s] => .switch s value
  | _ => .ambiguous

/-- The argument of a text, where only the given options are known. -/
def ofText (switches : List Switch) (s : String) : Argument :=
  match s.toList with
  | '-' :: c :: r =>
      let read :=
        if c == '-' then ofLong switches r
        else if c == 'h' then .shortHelp r
        else if isNumber (c :: r) then .word s
        else .unknown
      if read = .unknown ∧ ' ' ∈ c :: r then .word s else read
  | _ => .word s

/-- The arguments of a command line. -/
def ofTexts (switches : List Switch) : List String → List Argument
  | [] => []
  | s :: rest =>
      if s = "--" then .separator :: rest.map .word else ofText switches s :: ofTexts switches rest

end Argument

end AbiBridge
