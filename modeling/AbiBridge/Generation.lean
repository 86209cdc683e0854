import AbiBridge.Crate.Output
import AbiBridge.Manifest.Build
import AbiBridge.Manifest.Fields
import AbiBridge.Settings.Load

/-!
Generating a crate from a manifest.

The settings are looked for beside the manifest, then the manifest is read, its registrations are
made, and at last the crate is written. A `Destination` says where the crate is to go; one that
names no directory is only refused once the manifest has been read.
-/

namespace AbiBridge

/-- Where a crate is to be written. -/
inductive Destination where
  /-- Below the directory that the manifest declares. -/
  | declared
  /-- Below a directory of its own. -/
  | directory (path : Path)
  /-- Below a directory that was asked for and not named. -/
  | unnamed
  deriving DecidableEq, Repr

/-- The directory that takes the place of the declared one, if there is one. -/
def Destination.path? : Destination → Except Failure (Option Path)
  | declared => .ok none
  | directory path => .ok (some path)
  | unnamed => .error .destinationUnnamed

namespace Run

/-- The settings for the manifest at a path, with the given values put over those found. -/
def settingsFor (manifest : Path) (given : Table) : Run Settings := do
  MonadExcept.ofExcept (Settings.load (← get).files manifest.parent given)

/-- The crate on which the registrations of the manifest at a path are made. -/
def prepare (manifest : Path) (output : Destination) (settings : Settings) : Run Crate := do
  let m ← MonadExcept.ofExcept (Manifest.load (← get).files manifest)
  let output ← MonadExcept.ofExcept output.path?
  registering m.register (m.newCrate manifest.parent output settings)

/-- Writes the crate that the manifest at a path declares, and gives its folder. -/
def generate (manifest : Path) (output : Destination) (runFormatter : Option Bool)
    (formatter : Formatter) : Run Path := do
  let given := [("run_formatter", runFormatter.elim Value.null Value.boolean)]
  let crate ← prepare manifest output (← settingsFor manifest given)
  crate.flush formatter

end Run

end AbiBridge
