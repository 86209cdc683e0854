import AbiBridge.Failure
import AbiBridge.Settings.Basic
import AbiBridge.Toml.Reader

/-!
Finding the settings of a run.

The settings stand in a document of a fixed name. The search begins at a directory and goes on to
those it lies in, and the first document ends it, whether it has a table of settings or not.
Values that are given for the run are put over those of the document; a null changes nothing.

* `nearest?_eq_of_height_le`: a search that goes on further up finds the same document.
-/

namespace AbiBridge

namespace Settings

/-- The name of the documents that hold settings. -/
def documentName : String := "pyproject.toml"

/-- The document in a directory. -/
def documentIn? (files : FileTree) (loc : Location) : Option ByteArray :=
  match files.node? (loc ++ [documentName]) with
  | some (.file content) => some content
  | _ => none

/-- The nearest document: the one at a place or in the innermost directory around it, as far up as
there is anything in the tree. -/
def nearest? (files : FileTree) (start : Location) : Option ByteArray :=
  (start.ancestors ++ start.above files.height).findSome? (documentIn? files)

theorem nearest?_eq_of_height_le {files : FileTree} {n : Nat} (h : files.height ≤ n)
    (start : Location) :
    nearest? files start = (start.ancestors ++ start.above n).findSome? (documentIn? files) := by
  have hnone : ∀ k, files.height < k → documentIn? files (List.replicate k "..") = none := by
    intro k hk
    rw [← Location.ups_replicate_concat k documentName (by decide)] at hk
    rw [documentIn?, FileTree.node?_eq_none_of_height_lt
      (Location.isBase_concat _ (by decide) (by decide)) hk]
  obtain ⟨ks, habove, hks⟩ := start.exists_above_eq_append h
  have hrest : (ks.map fun k => List.replicate k "..").findSome? (documentIn? files) = none := by
    rw [List.findSome?_eq_none_iff, List.forall_mem_map]
    exact fun k hk => hnone k (hks k hk)
  rw [habove, ← List.append_assoc, List.findSome?_append, hrest, Option.or_none, nearest?]

/-- The fields in the table of settings, which may be absent. -/
def fieldsOf (document : Table) : Except ShapeFault Table :=
  match List.lookup "tool" document with
  | none => .ok []
  | some (.table tools) =>
      match List.lookup "ffiber" tools with
      | none => .ok []
      | some v => v.asEntries
  | some v => .error (.noFields v.className)

/-- The fields in the document that bytes write down. -/
def fieldsOfBytes (content : ByteArray) : Except Failure Table :=
  match Toml.ofBytes content with
  | .error .notText => .error .encoding
  | .error (.notDocument fault) => .error (.settingsDocument fault)
  | .ok document => (fieldsOf document).mapError .settingsShape

/-- The fields in the nearest document, none if there is no document. -/
def nearestFields (files : FileTree) (start : Path) : Except Failure Table :=
  if start.hasNull then .error (.file ⟨.nullCharacter, start.text⟩)
  else ((nearest? files (.ofPath start)).map fieldsOfBytes).getD (.ok [])

/-- Fields with others put over them; a null changes nothing. -/
def override (fields others : Table) : Table :=
  others.foldl
    (fun t e => match e.2 with
      | .null => t
      | v => t.put e.1 v)
    fields

/-- The settings for a run that begins at a directory. -/
def load (files : FileTree) (start : Path) (given : Table) : Except Failure Settings := do
  let fields ← nearestFields files start
  (ofTable (override fields given)).mapError .record

end Settings

end AbiBridge
