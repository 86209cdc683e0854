import AbiBridge.Schema
import AbiBridge.Text.Blank

/-!
Settings of a run.

The settings say what goes into the generated crate beside the wrappers, and whether and how its
sources are formatted. `Settings.ofTable` checks the fields of a table; a formatter that is not
given is the usual one for the edition.
-/

namespace AbiBridge

open Text

/-- The language of the generated header. -/
inductive HeaderLanguage where
  | c
  | cxx
  deriving DecidableEq, Repr

namespace HeaderLanguage

/-- The language as the header generator spells it. -/
def text : HeaderLanguage → String
  | c => "C"
  | cxx => "Cxx"

/-- The language of a text, in any case and with blanks around it. -/
def ofText? (s : String) : Option HeaderLanguage :=
  let word := (trim s.toList).map Char.toLower
  if word = ['c'] then some c
  else if word = ['c', 'x', 'x'] ∨ word = ['c', '+', '+'] then some cxx
  else none

end HeaderLanguage

/-- The edition if none is given. -/
def defaultEdition : String := "2021"

/-- The formatter's command for an edition. -/
def formatterFor (edition : String) : List String := ["rustfmt", "--edition", edition]

/-- The settings of a run. -/
structure Settings where
  /-- The edition of the native language. -/
  edition : String := defaultEdition
  /-- The version of the header generator. -/
  headerToolVersion : String := "0.26.0"
  /-- The language of the header. -/
  headerLanguage : HeaderLanguage := .c
  /-- Whether the sources are formatted. -/
  runFormatter : Bool := true
  /-- The formatter with its first arguments. -/
  formatterCommand : List String := formatterFor defaultEdition
  deriving DecidableEq, Repr

namespace Settings

/-- The language of a header, in one of its spellings. -/
def checkLanguage (v : Value) : Checked HeaderLanguage :=
  match v.asText with
  | .error issues => .error issues
  | .ok s =>
      match HeaderLanguage.ofText? s with
      | some language => .ok language
      | none =>
          Checked.complain
            (.rule s!"Unsupported header language: '{s}'. Expected one of C, Cxx.")

/-- A command that names an executable. -/
def checkCommand (v : Value) : Checked (List String) :=
  (v.asListOf Value.asText).obeying fun words =>
    if words.isEmpty then some "formatter_command must name an executable" else none

/-- The formatter's command; what is absent or null is the usual one. -/
def checkFormatter (edition : Checked String) (t : Table) : Checked (List String) :=
  match List.lookup "formatter_command" t with
  | none | some .null => .ok (formatterFor (edition.toOption.getD defaultEdition))
  | some v => Checked.under "formatter_command" (checkCommand v)

/-- The settings that the fields of a table give. -/
def check (t : Table) : Checked Settings :=
  let edition := t.optional "edition" defaultEdition Value.asText
  let version := t.optional "cbindgen_version" "0.26.0" Value.asText
  let language := t.optional "header_language" .c checkLanguage
  let runFormatter := t.optional "run_formatter" true Value.asBoolean
  let command := checkFormatter edition t
  (edition.both (version.both (language.both (runFormatter.both command)))).map
    fun (edition, version, language, runFormatter, command) =>
      ⟨edition, version, language, runFormatter, command⟩

/-- The settings of a table, or everything that is wrong with its fields. -/
def ofTable (t : Table) : Except Report Settings :=
  (check t).mapError fun issues => ⟨"GeneratorConfig", issues⟩

end Settings

end AbiBridge
