import AbiBridge.Generation

/-!
The commands.

`Command.generate` writes the crate of a manifest and `Command.inspect` shows what it would
export. Both tell in the journal what goes wrong, as far as the fault is one of the data or, when
the crate is written, of the files or the formatter; every other failure is left to the caller.
-/

namespace AbiBridge

open Text

/-- How a command ended. -/
inductive ExitStatus where
  | success
  | failure
  /-- The command was not called as it should be. -/
  | misuse
  deriving DecidableEq, Repr

namespace ExitStatus

/-- The exit code. -/
def code : ExitStatus → Nat
  | success => 0
  | failure => 1
  | misuse => 2

end ExitStatus

namespace Command

/-- A run whose failures are told as an error, if there is a wording for them. -/
def reporting {α : Type} (wording : Failure → Option String) (x : Run α) : Run (Option α) :=
  tryCatch (some <$> x) fun f =>
    match wording f with
    | some text => do
        Run.log .error text
        return none
    | none => throw f

/-- The wording of a failure in a message, with its markup escaped. In the report on a record the
class of a complaint goes in as it is. The fault of a document belongs to the message although it
is left out of the end. -/
def shown : Failure → String
  | .record report => report.messageBehind escapeMarkup ""
  | .manifestRecord path report =>
      report.messageBehind escapeMarkup (manifestRecordHeading path)
  | .manifestDocument path fault =>
      escapeMarkupBefore s!": {fault.message}" (Failure.manifestDocument path fault).message
  | f => escapeMarkup f.message

/-- The wording of a failure to get the settings. -/
def settingsTrouble (f : Failure) : Option String :=
  if !f.kind.isData then none
  else if f.message = "" then some "Invalid configuration"
  else some ("Invalid configuration: " ++ shown f)

/-- The wording of a failure to read a manifest and make its registrations. -/
def manifestTrouble (f : Failure) : Option String :=
  if f.kind.isData || f.kind = .wrongType then some (shown f) else none

/-- The wording of a failure to write a crate. -/
def outputTrouble (f : Failure) : Option String :=
  match f with
  | .formatter code output =>
      let shown := escapeMarkup (String.ofList (trim output.toList))
      some s!"Formatter failed with exit code {code}: {shown}"
  | f =>
      if f.kind.isFiles || f.kind.isData then
        some ("Could not write crate: " ++ shown f)
      else none

/-- The crate of the manifest at a path, if there is a manifest and nothing is wrong with it. -/
def prepare (manifest : Path) (output : Destination) (settings : Settings) :
    Run (Option Crate) := do
  if ← MonadExcept.ofExcept (((← get).files.isFile manifest).mapError .file) then
    reporting manifestTrouble (Run.prepare manifest output settings)
  else
    Run.log .error ("Manifest not found: " ++ escapeMarkup manifest.text)
    return none

/-- Writes the crate of the manifest at a path. -/
def generate (manifest : Path) (output : Destination) (unformatted verbose : Bool)
    (formatter : Formatter) : Run ExitStatus := do
  if verbose then Run.keepFrom .debug
  let given := if unformatted then [("run_formatter", Value.boolean false)] else []
  match ← reporting settingsTrouble (Run.settingsFor manifest given) with
  | none => return .failure
  | some settings =>
      Run.log .info ("Reading [path]" ++ escapeMarkup manifest.text ++ "[/path]")
      match ← prepare manifest output settings with
      | none => return .failure
      | some crate =>
          match ← reporting outputTrouble (crate.flush formatter) with
          | none => return .failure
          | some _ => return .success

/-- Shows what the crate of the manifest at a path would export. -/
def inspect (manifest : Path) : Run ExitStatus := do
  match ← prepare manifest .declared { runFormatter := false } with
  | none => return .failure
  | some crate =>
      Run.display (.ofCrate crate)
      let count := crate.signatures.length
      Run.log .info s!"{count} exported functions"
      return .success

end Command

end AbiBridge
