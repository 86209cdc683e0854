import AbiBridge.Crate.Text
import AbiBridge.World

/-!
Writing a crate.

The files of a crate are written one after the other, and then formatted; how the formatter
behaves is given with the run. A run that fails leaves what it wrote up to there.
-/

namespace AbiBridge

open Text

/-- How the formatter behaves. A program that is there and cannot be started, and an output that is
no text, have no constructor of their own: the writing of the crate ends at the same place as with
an absent program, and a caller deals with all of these in the same way. -/
inductive Formatter where
  | succeeds
  /-- It ends with an exit code other than zero and writes a text. -/
  | refuses (code : Int) (output : String)
  /-- There is no such program. -/
  | absent
  deriving DecidableEq, Repr, Inhabited

namespace Run

/-- Writes a file, making the directories it is to lie in. -/
def writeFile (path : Path) (text : String) : Run Unit := do
  filing (Filing.makeDirectories path.parent)
  filing (Filing.write path text)

/-- Formats files in place. -/
def format (formatter : Formatter) (command : List String) (paths : List Path) : Run Unit := do
  let words := command ++ paths.map Path.text
  log .info ("Formatting with [code]" ++ escapeMarkup (" ".intercalate words) ++ "[/code]")
  modify fun w => { w with commands := w.commands ++ [words] }
  match formatter with
  | .succeeds => pure ()
  | .refuses code output => throw (.formatter code output)
  | .absent => throw (.file ⟨.missing, words.headD ""⟩)

end Run

namespace Crate

/-- Where the program that makes the header lies. -/
def buildScriptPath (folder : Path) : Path := folder.join (Path.ofString "build.rs")

/-- Where the manifest of the crate lies. -/
def manifestPath (folder : Path) : Path := folder.join (Path.ofString "Cargo.toml")

/-- Where the source of the library lies. -/
def libraryPath (folder : Path) : Path := folder.join (Path.ofString "src/lib.rs")

/-- Writes the program that makes the header, and gives its path. -/
def writeBuildScript (package : String) (folder : Path) (settings : Settings) : Run Path := do
  Run.writeFile (buildScriptPath folder) (buildScript package settings)
  return buildScriptPath folder

/-- Writes the manifest of the crate, and gives its path. -/
def writeManifest (package : String) (folder : Path) (dependencies : List String)
    (settings : Settings) : Run Path := do
  Run.writeFile (manifestPath folder) (manifestText package dependencies settings)
  return manifestPath folder

/-- Writes the crate and formats its sources, and gives its folder. -/
def flush (c : Crate) (formatter : Formatter) : Run Path := do
  if !c.emitter.frames.isEmpty then throw (.registration .scopeOpen)
  Run.filing (Filing.makeDirectories (libraryPath c.folder).parent)
  let script ← writeBuildScript c.package c.folder c.settings
  discard (writeManifest c.package c.folder c.dependencies c.settings)
  Run.filing (Filing.write (libraryPath c.folder) c.librarySource)
  let count := c.symbols.length
  Run.log .info
    ("Wrote [path]" ++ escapeMarkup c.folder.text ++ s!"[/path] ({count} exported functions)")
  if c.settings.runFormatter then
    Run.format formatter c.settings.formatterCommand [libraryPath c.folder, script]
  Run.log .success ("Generated crate [bold]" ++ escapeMarkup c.name ++ "[/bold]")
  return c.folder

end Crate

end AbiBridge
