import AbiBridge.CommandLine.Argument
import AbiBridge.CommandLine.Command

/-!
What a command line asks for.

The first word names the command, and what stands behind it is read with the options of that
command. A call for help or for the version is answered as soon as it is reached; an option that
is not known or a word too many only counts once all has been read.
-/

namespace AbiBridge

/-- Why the reading of arguments ended early. -/
inductive Interruption where
  | help
  | version
  | misuse
  deriving DecidableEq, Repr

/-- The destination that the value of an option names. The sign that only words follow names
none. -/
def Destination.ofText (s : String) : Destination :=
  if s = "--" then .unnamed else .directory (Path.ofString s)

/-- What was read behind the name of a command. -/
structure Reading where
  /-- The manifest. -/
  manifest : Option String := none
  /-- The directory for the crate. -/
  output : Destination := .declared
  unformatted : Bool := false
  verbose : Bool := false
  /-- Whether there was something that has no place. -/
  excess : Bool := false
  deriving DecidableEq, Repr

namespace Interruption

/-- The answer to the short form of the option for help with the characters behind its letter:
the same letter may be repeated, also behind an equals sign, and nothing else has a place there. -/
def ofShortHelp : List Char → Interruption
  | ['='] => .misuse
  | '=' :: r => if r.all (· == 'h') then .help else .misuse
  | r => if r.all (· == 'h') then .help else .misuse

/-- The answer to an option that ends the reading. -/
def ofSwitch : Switch → Option String → Interruption
  | .help, none => .help
  | .version, none => .version
  | _, _ => .misuse

end Interruption

namespace Reading

/-- Reads arguments. One separator may stand directly before or behind the manifest. -/
def read : List Argument → Reading → Except Interruption Reading
  | [], r => .ok r
  | .switch .output none :: .word w :: rest, r => read rest { r with output := .ofText w }
  | .switch .output (some w) :: rest, r => read rest { r with output := .ofText w }
  | .switch .unformatted none :: rest, r => read rest { r with unformatted := true }
  | .switch .verbose none :: rest, r => read rest { r with verbose := true }
  | .switch s value :: _, _ => .error (.ofSwitch s value)
  | .shortHelp rest :: _, _ => .error (.ofShortHelp rest)
  | .ambiguous :: _, _ => .error .misuse
  | .unknown :: rest, r => read rest { r with excess := true }
  | .word w :: .separator :: rest, r =>
      match r.manifest with
      | none => read rest { r with manifest := some w }
      | some _ => read rest { r with excess := true }
  | .word w :: rest, r =>
      match r.manifest with
      | none => read rest { r with manifest := some w }
      | some _ => read rest { r with excess := true }
  | .separator :: .word w :: rest, r =>
      match r.manifest with
      | none => read rest { r with manifest := some w }
      | some _ => read rest { r with excess := true }
  | .separator :: rest, r => read rest { r with excess := true }

end Reading

/-- What a command line asks for. -/
inductive Invocation where
  | help
  | version
  /-- Nothing that can be done. -/
  | misuse
  | generate (manifest : Path) (output : Destination) (unformatted verbose : Bool)
  | inspect (manifest : Path)
  deriving DecidableEq, Repr

namespace Invocation

/-- The options in front of the name of the command. -/
def outerSwitches : List Switch := [.help, .version]

/-- The options of the command that writes a crate. -/
def generateSwitches : List Switch := [.help, .output, .unformatted, .verbose]

/-- The options of the command that shows the exported symbols. -/
def inspectSwitches : List Switch := [.help]

/-- What is asked for if the reading ended early. -/
def ofInterruption : Interruption → Invocation
  | .help => help
  | .version => version
  | .misuse => misuse

/-- What is asked for by the texts behind the name of a command; `excess` says whether something
in front of it has no place. -/
def ofRest (switches : List Switch) (make : Reading → Path → Invocation) (excess : Bool)
    (rest : List String) : Invocation :=
  match Reading.read (Argument.ofTexts switches rest) { excess } with
  | .error i => ofInterruption i
  | .ok r =>
      match r.excess, r.manifest with
      | false, some manifest => make r (Path.ofString manifest)
      | _, _ => misuse

/-- What is asked for by a command and the texts behind its name. -/
def ofCommand (name : String) (excess : Bool) (rest : List String) : Invocation :=
  if name = "generate" then
    ofRest generateSwitches
      (fun r manifest => generate manifest r.output r.unformatted r.verbose)
      excess rest
  else if name = "inspect" then
    ofRest inspectSwitches (fun _ manifest => inspect manifest) excess rest
  else misuse

/-- What is asked for by texts that may begin with options; `excess` says whether something
before them has no place. -/
def ofOuter (excess : Bool) : List String → Invocation
  | [] => misuse
  | s :: rest =>
      if s = "--" then misuse
      else match Argument.ofText outerSwitches s with
        | .word name => ofCommand name excess rest
        | .switch s value => ofInterruption (.ofSwitch s value)
        | .shortHelp tail => ofInterruption (.ofShortHelp tail)
        | .unknown => ofOuter true rest
        | .separator | .ambiguous => misuse

/-- What a command line asks for. An option that could be several makes it senseless wherever it
stands. -/
def ofTexts (texts : List String) : Invocation :=
  if (Argument.ofTexts outerSwitches texts).contains .ambiguous then misuse
  else ofOuter false texts

/-- The answer to a call for the version. -/
def versionText : String := "ffiber 0.1.0"

/-- Does what is asked for. -/
def run (formatter : Formatter) : Invocation → Run ExitStatus
  | help | version => pure .success
  | misuse => pure .misuse
  | generate manifest output unformatted verbose =>
      Command.generate manifest output unformatted verbose formatter
  | inspect manifest => Command.inspect manifest

end Invocation

end AbiBridge
