import AbiBridge.Failure
import AbiBridge.Files.Tree
import AbiBridge.Journal
import AbiBridge.Listing

/-!
What a run can see and change.

A `World` holds the files, the journal, the tables that were shown and the commands that were run.
A `Run` changes it, and leaves what it changed even if it fails.
-/

namespace AbiBridge

/-- What a run can see and change. -/
structure World where
  files : FileTree := {}
  journal : Journal := {}
  /-- The tables that were shown, in order. -/
  listings : List Listing := []
  /-- The commands that were run, in order. -/
  commands : List (List String) := []

/-- A run, which may fail. -/
abbrev Run := EStateM Failure World

namespace Run

/-- An operation on the files. -/
def filing {α : Type} (x : Filing α) : Run α := fun w =>
  match x w.files with
  | .ok a t => .ok a { w with files := t }
  | .error fault t => .error (.file fault) { w with files := t }

/-- Adds a message to the journal. -/
def log (level : Level) (text : String) : Run Unit :=
  modify fun w => { w with journal := w.journal.log level text }

/-- Keeps messages of a level and of those that are more urgent. -/
def keepFrom (level : Level) : Run Unit :=
  modify fun w => { w with journal := { w.journal with threshold := level } }

/-- Shows a table. -/
def display (listing : Listing) : Run Unit :=
  modify fun w => { w with listings := w.listings ++ [listing] }

/-- Makes registrations on a crate. What there is to tell about them is told even if one of them
fails. -/
def registering (x : Registering Unit) (c : Crate) : Run Crate := fun w =>
  match x c with
  | .ok _ c => .ok c { w with journal := w.journal.addAll c.notes }
  | .error f c => .error f { w with journal := w.journal.addAll c.notes }

end Run

end AbiBridge
