import AbiBridge.Crate.Output
import AbiBridge.Proofs.Outcome
import Mathlib.Logic.Function.Basic

/-!
What operations do to the files of a tree.

Directories are made on the way to a file, but of the files themselves, each operation touches at
most the one that it is called for.

* `FileTree.content?`: the bytes of the file at a place;
* `locate_eq_ok`: the place to which a path leads over directories can be read off the path;
* `isFile_iff`: a file is there exactly if it can be read;
* `Filing.keeps_makeDirectories`: making directories leaves all files as they are, also if it fails;
* `Filing.content?_of_write`: writing a file leaves all others as they are;
* `Writes`, `Writes.bind`: what a run that succeeds makes of the files.
-/

namespace AbiBridge

open Outcome

namespace FileTree

/-- The bytes of the file at a place, if there is one. -/
def content? (t : FileTree) (loc : Location) : Option ByteArray :=
  match t.node? loc with
  | some (.file content) => some content
  | some .directory | none => none

/-! ### Places -/

/-- Over directories only, the parts of a path lead to a place that does not depend on the tree. -/
lemma walk_eq_ok {t : FileTree} {parts : List String} {loc loc' : Location}
    (h : t.walk loc parts = .ok loc') : loc' = parts.foldl Location.child loc := by
  induction parts generalizing loc with
  | nil =>
      cases h
      rfl
  | cons part parts ih =>
      rw [walk] at h
      split at h
      · cases h
      · cases h
      · split at h
        · cases h
        · exact ih h

lemma locate_eq_ok {t : FileTree} {p : Path} {loc : Location} (h : t.locate p = .ok loc) :
    loc = .ofPath p := by
  rw [locate] at h
  split at h
  · cases h
  · split at h
    · cases h
    · exact walk_eq_ok h

/-- A path leads to a file exactly if there are bytes to be read at it. -/
lemma isFile_iff {t : FileTree} {p : Path} :
    t.isFile p = .ok true ↔ ∃ content, t.read p = .ok content := by
  rw [isFile, read]
  cases t.locate p with
  | error problem =>
      refine iff_of_false ?_ ?_
      · cases problem <;> rintro ⟨⟩
      · rintro ⟨_, ⟨⟩⟩
  | ok loc =>
      dsimp only
      cases t.node? loc with
      | none =>
          refine iff_of_false ?_ ?_
          · rintro ⟨⟩
          · rintro ⟨_, ⟨⟩⟩
      | some node =>
          cases node with
          | directory =>
              refine iff_of_false ?_ ?_
              · rintro ⟨⟩
              · rintro ⟨_, ⟨⟩⟩
          | file content => exact iff_of_true rfl ⟨content, rfl⟩

/-! ### What is put into a tree -/

/-- A new directory takes the place of no file. -/
lemma content?_put_directory {t : FileTree} {loc : Location} (h : t.node? loc = none) :
    (t.put loc .directory).content? = t.content? := by
  funext other
  by_cases hother : other = loc
  · subst hother
    have hbase : Location.isBase other = false := by
      by_contra hbase
      rw [node?, if_pos (eq_true_of_ne_false hbase)] at h
      cases h
    rw [content?, content?, node?_put_self t hbase, h]
  · rw [content?, content?, node?_put_of_ne t hother]

/-- A file takes the place of what was there. -/
lemma content?_put_file {t : FileTree} {loc : Location} (hbase : loc.isBase = false)
    (content : ByteArray) :
    (t.put loc (.file content)).content? = Function.update t.content? loc (some content) := by
  funext other
  by_cases hother : other = loc
  · subst hother
    rw [Function.update_self, content?, node?_put_self t hbase]
  · rw [Function.update_of_ne hother, content?, content?, node?_put_of_ne t hother]

end FileTree

/-! ### Operations on files -/

namespace Filing

variable {files : Location → Option ByteArray}

/-- The tree is looked at before it is changed. -/
lemma makeDirectory_eq (p : Path) (t : FileTree) :
    makeDirectory p t = (match t.locate p with
      | .error problem => throw ⟨problem, p.text⟩
      | .ok loc =>
          if (t.node? loc).isSome then throw ⟨.existing, p.text⟩
          else set (t.put loc .directory) : Filing Unit) t :=
  rfl

lemma write_eq (p : Path) (text : String) (t : FileTree) :
    write p text t = (match t.locate p with
      | .error problem => throw ⟨problem, p.text⟩
      | .ok loc =>
          match t.node? loc with
          | some .directory => throw ⟨.isDirectory, p.text⟩
          | _ => set (t.put loc (.file text.toUTF8)) : Filing Unit) t :=
  rfl

lemma keeps_makeDirectory (p : Path) :
    Keeps (fun t : FileTree => t.content? = files) (makeDirectory p) := by
  intro t ht
  rw [after, makeDirectory_eq]
  cases t.locate p with
  | error problem => exact ht
  | ok loc =>
      cases hnode : t.node? loc with
      | some node =>
          simp only [hnode, Option.isSome_some, if_true]
          exact ht
      | none =>
          simp only [hnode, Option.isSome_none, Bool.false_eq_true, if_false]
          exact (FileTree.content?_put_directory hnode).trans ht

lemma keeps_unlessDirectory (p : Path) (fault : FileFault) :
    Keeps (fun t : FileTree => t.content? = files) (unlessDirectory p fault) := by
  refine Keeps.bind (fun t ht => ht) fun t => ?_
  exact .ite (.pure ()) (.throw fault)

lemma keeps_makeDirectoriesUp (anchor : Anchor) (reversed : List String) :
    Keeps (fun t : FileTree => t.content? = files) (makeDirectoriesUp anchor reversed) := by
  induction reversed with
  | nil =>
      exact (keeps_makeDirectory _).tryCatch fun fault =>
        .ite (.throw fault) (keeps_unlessDirectory _ fault)
  | cons part above ih =>
      refine (keeps_makeDirectory _).tryCatch fun fault => .ite ?_ (keeps_unlessDirectory _ fault)
      exact ih.bind fun _ => (keeps_makeDirectory _).tryCatch fun fault =>
        .ite (.throw fault) (keeps_unlessDirectory _ fault)

/-- Making directories leaves all files as they are, also if it fails half-way. -/
lemma keeps_makeDirectories (p : Path) :
    Keeps (fun t : FileTree => t.content? = files) (makeDirectories p) :=
  keeps_makeDirectoriesUp _ _

/-- Writing a file leaves all others as they are. -/
lemma content?_of_write {p : Path} {text : String} {t t' : FileTree}
    (hplace : (Location.ofPath p).isBase = false) (h : write p text t = .ok () t') :
    t'.content? = Function.update t.content? (.ofPath p) (some text.toUTF8) := by
  rw [write_eq] at h
  cases hlocate : t.locate p with
  | error problem =>
      rw [hlocate] at h
      cases h
  | ok loc =>
      cases FileTree.locate_eq_ok hlocate
      have hput : t' = t.put (.ofPath p) (.file text.toUTF8) := by
        rw [hlocate] at h
        dsimp only at h
        cases hnode : t.node? (.ofPath p) with
        | none =>
            rw [hnode] at h
            cases h
            rfl
        | some node =>
            rw [hnode] at h
            cases node with
            | directory => cases h
            | file content =>
                cases h
                rfl
      rw [hput]
      exact FileTree.content?_put_file hplace _

end Filing

/-! ### Runs -/

/-- The files after the given ones were written, one after the other. -/
def withWritten (files : Location → Option ByteArray) (written : List (Location × ByteArray)) :
    Location → Option ByteArray :=
  written.foldl (fun files file => Function.update files file.1 (some file.2)) files

/-- A run that succeeds has written these files and no others, and has run no command. -/
def Writes {α : Type} (written : List (Location × ByteArray)) (x : Run α) : Prop :=
  ∀ w a w', x w = .ok a w' →
    w'.files.content? = withWritten w.files.content? written ∧ w'.commands = w.commands

namespace Writes

variable {α β : Type} {written written' : List (Location × ByteArray)} {x : Run α}

lemma pure (a : α) : Writes [] (Pure.pure a : Run α) := by
  intro w b w' h
  cases h
  exact ⟨rfl, rfl⟩

lemma log (level : Level) (text : String) : Writes [] (Run.log level text) := by
  intro w _ w' h
  cases h
  exact ⟨rfl, rfl⟩

/-- A run that fails does not count. -/
lemma throw_bind {f : α → Run β} {failure : Failure} : Writes written (throw failure >>= f) := by
  intro w b w' h
  cases h

lemma bind {f : α → Run β} (hx : Writes written x) (hf : ∀ a, Writes written' (f a)) :
    Writes (written ++ written') (x >>= f) := by
  intro w b w' h
  cases hrun : x w with
  | error failure w₁ =>
      rw [run_bind_of_error hrun] at h
      cases h
  | ok a w₁ =>
      rw [run_bind hrun] at h
      obtain ⟨hfiles, hcommands⟩ := hx w a w₁ hrun
      obtain ⟨hfiles', hcommands'⟩ := hf a w₁ b w' h
      refine ⟨?_, hcommands'.trans hcommands⟩
      rw [hfiles', hfiles, withWritten, withWritten, withWritten, List.foldl_append]

/-- Making directories leaves all files as they are. -/
lemma makeDirectories (p : Path) : Writes [] (Run.filing (Filing.makeDirectories p)) := by
  intro w a w' h
  rw [Run.filing] at h
  have hkeeps := Filing.keeps_makeDirectories p w.files rfl
  cases hrun : Filing.makeDirectories p w.files with
  | ok _ t =>
      rw [hrun] at h
      rw [after_of_ok hrun] at hkeeps
      cases h
      exact ⟨hkeeps, rfl⟩
  | error fault t =>
      rw [hrun] at h
      cases h

/-- Writing a file leaves all others as they are. -/
lemma write {p : Path} (hplace : (Location.ofPath p).isBase = false) (text : String) :
    Writes [(.ofPath p, text.toUTF8)] (Run.filing (Filing.write p text)) := by
  intro w a w' h
  rw [Run.filing] at h
  cases hrun : Filing.write p text w.files with
  | ok _ t =>
      rw [hrun] at h
      cases h
      exact ⟨Filing.content?_of_write hplace hrun, rfl⟩
  | error fault t =>
      rw [hrun] at h
      cases h

lemma writeFile {p : Path} (hplace : (Location.ofPath p).isBase = false) (text : String) :
    Writes [(.ofPath p, text.toUTF8)] (Run.writeFile p text) :=
  (makeDirectories _).bind fun _ => write hplace text

end Writes

end AbiBridge
