import AbiBridge.CommandLine.Invocation

/-!
The program.

The files that an invocation reads are put into a world, what is asked for is done there, and the
files that came of it are written. The program starts no other program: for it, the formatter is
absent.
-/

namespace AbiBridge.Program

/-- A place as the system writes it. -/
def placeText (loc : Location) : String := if loc.isEmpty then "." else "/".intercalate loc

/-- The bytes of the file at a place, if it can be read. -/
def readPlace (loc : Location) : IO (Option ByteArray) := do
  try return some (← IO.FS.readBinFile (placeText loc)) catch _ => return none

/-- How many directories above the working directory are searched for settings. -/
def searchHeight : Nat := 64

/-- The place and the bytes of the first document of settings in one of the directories. -/
def readNearest : List Location → IO (Option (Location × ByteArray))
  | [] => return none
  | loc :: others => do
      let place := loc ++ [Settings.documentName]
      match ← readPlace place with
      | some content => return some (place, content)
      | none => readNearest others

/-- The files that a run on a manifest reads. -/
def readFiles (manifest : Path) : IO FileTree := do
  let mut tree : FileTree := {}
  let place := Location.ofPath manifest
  if let some content ← readPlace place then
    tree := tree.withFile place content
  let start := Location.ofPath manifest.parent
  if let some (place, content) ← readNearest (start.ancestors ++ start.above searchHeight) then
    tree := tree.withFile place content
  return tree

/-- Whether there is a file of the given content at a place. -/
def holds (tree : FileTree) (loc : Location) (content : ByteArray) : Bool :=
  match tree.node? loc with
  | some (.file found) => found.data == content.data
  | _ => false

/-- Writes the files that are in the second tree and not in the first one. -/
def writeFiles (before after : FileTree) : IO Unit := do
  for (loc, content) in after.files do
    if !holds before loc content then
      IO.FS.createDirAll (placeText loc.dropLast)
      IO.FS.writeBinFile (placeText loc) content

/-- Prints what there is to tell and to show. -/
def printWorld (w : World) : IO Unit := do
  for note in w.journal.notes do
    IO.println (note.level.text ++ " " ++ note.message)
  for listing in w.listings do
    IO.println listing.title
    for row in listing.headers :: listing.rows do
      IO.println ("\t".intercalate row)

/-- How the program is called. -/
def usage : String :=
  "usage: ffiber [-h] [--version] (generate | inspect) ...\n" ++
  "       ffiber generate [-h] [--out DIRECTORY] [--no-format] [--verbose] MANIFEST\n" ++
  "       ffiber inspect [-h] MANIFEST"

/-- Does what is asked for, and gives the exit code. -/
def perform (invocation : Invocation) (files : FileTree) : IO UInt32 := do
  match invocation.run .absent { files } with
  | .ok status w =>
      writeFiles files w.files
      printWorld w
      return status.code.toUInt32
  | .error f w =>
      writeFiles files w.files
      printWorld w
      IO.eprintln f.message
      return ExitStatus.failure.code.toUInt32

end AbiBridge.Program

open AbiBridge in
def main (args : List String) : IO UInt32 := do
  let invocation := Invocation.ofTexts args
  match invocation with
  | .help => IO.println Program.usage
  | .version => IO.println Invocation.versionText
  | .misuse => IO.eprintln Program.usage
  | .generate .. | .inspect _ => pure ()
  let files ← match invocation with
    | .generate manifest .. | .inspect manifest => Program.readFiles manifest
    | _ => pure {}
  Program.perform invocation files
