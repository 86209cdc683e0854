import AbiBridge.Crate.Text
import AbiBridge.Proofs.Crate.Library
import AbiBridge.Proofs.Toml.Sections

/-!
The manifest of a crate as a document.

The manifest is put together line by line: headers, assignments of texts between double quotes, and
one entry for each dependency. The names of the crates and of their options, the name of the
package, the edition and the version of the header tool go into the lines as they are; where they
need neither quotes nor escapes, the lines write down the sections that are meant.

* `Registering.assigns_of_dependencyEntry`: an entry assigns the options to the name of the crate;
* `Crate.manifestLines`, `Crate.manifestText_eq`: the lines of the manifest;
* `Crate.manifestSections`, `Crate.writes_manifestLines`: the sections they write down.
-/

namespace AbiBridge

open Outcome Toml

/-! ### Dependencies -/

/-- An entry of a dependency assigns a table on one line to the name of a crate. -/
lemma Registering.assigns_of_dependencyEntry {name entry : String} {options : Table}
    (h : dependencyEntry name options = .ok entry) (hname : IsBareName name)
    (hoptions : ∀ o ∈ options, IsBareName o.1) (hvalues : ∀ o ∈ options, Legible o.2)
    (hdistinct : (options.map Prod.fst).Nodup) : Assigns (name, .table options) entry := by
  rw [dependencyEntry] at h
  split at h
  · cases h
  · next hempty =>
    obtain ⟨rendered, hrendered, h⟩ := bind_eq_ok.mp h
    cases h
    have hlines : List.Forall₂ Assigns options rendered := by
      refine Listwise.imp_of_mem (mapM_eq_ok.mp hrendered) fun (key, value) hmem line hline => ?_
      dsimp only at hline
      cases htext : Toml.inline value with
      | error fault =>
          rw [htext] at hline
          cases hline
      | ok text =>
          rw [htext] at hline
          cases hline
          exact .mk (hoptions _ hmem) ((hvalues _ hmem).readsBack htext)
    have hne : rendered ≠ [] := by
      rintro rfl
      cases hlines
      exact hempty rfl
    have hentry : name ++ " = \x7b " ++ ", ".intercalate rendered ++ " \x7d" =
        name ++ " = " ++ ("\x7b " ++ ", ".intercalate rendered ++ " \x7d") := by
      have hsplit : " = \x7b " = " = " ++ "\x7b " := rfl
      rw [hsplit]
      simp only [String.append_assoc]
    rw [hentry]
    exact .mk hname (readsBack_table hlines hne hdistinct)

/-- An entry of a dependency begins with its name. -/
lemma Registering.exists_eq_of_dependencyEntry {name entry : String} {options : Table}
    (h : dependencyEntry name options = .ok entry) : ∃ more, entry = name ++ more := by
  rw [dependencyEntry] at h
  split at h
  · cases h
  · obtain ⟨rendered, -, h⟩ := bind_eq_ok.mp h
    cases h
    exact ⟨_, by simp only [String.append_assoc]; rfl⟩

/-! ### Lines -/

/-- The text of lines, the last of which does not end in a line feed, has the characters of the
lines. -/
lemma textOfLines_append {ls : List String} {line : String} {c : Char}
    (hlast : line.toList.getLast? = some c) (hc : c ≠ '\n') :
    textOfLines (ls ++ [line]) = String.ofList (lineChars (ls ++ [line])) := by
  have hchars : ("\n".intercalate (ls ++ [line])).toList ++ ['\n'] = lineChars (ls ++ [line]) := by
    obtain ⟨first, others, hcons⟩ := List.exists_cons_of_ne_nil
      (List.append_ne_nil_of_right_ne_nil ls (List.cons_ne_nil line []))
    have hjoin := congrArg String.toList (intercalate_append_newline first others)
    rw [String.toList_append, ← hcons] at hjoin
    rw [String.toList_join, List.flatMap_map] at hjoin
    refine hjoin.trans (List.flatMap_congr fun line _ => ?_)
    rw [String.toList_append]
    rfl
  have hsplit : ("\n".intercalate (ls ++ [line])).toList = lineChars ls ++ line.toList := by
    rw [lineChars_append, lineChars_singleton, ← List.append_assoc] at hchars
    exact List.append_cancel_right hchars
  have hline : ("\n".intercalate (ls ++ [line])).toList.getLast? = some c := by
    rw [hsplit, List.getLast?_append, hlast]
    rfl
  rw [textOfLines, Emitter.source_eq_of_text 0 hline hc String.append_empty.symm,
    ← String.toList_inj, String.toList_ofList, String.toList_append, ← hchars]
  rfl

/-! ### Names -/

section Names

variable {old new : Char} {name : String}

lemma all_replaceChar {p : Char → Bool} (hnew : p new = true) (h : name.toList.all p = true) :
    (replaceChar old new name).toList.all p = true := by
  rw [replaceChar, String.toList_ofList, List.all_map, List.all_eq_true]
  intro c hc
  rw [Function.comp_apply]
  split
  · exact hnew
  · exact List.all_eq_true.mp h c hc

lemma not_mem_replaceChar {c : Char} (hnew : c ≠ new) (h : c ∉ name.toList) :
    c ∉ (replaceChar old new name).toList := by
  rw [replaceChar, String.toList_ofList, List.mem_map]
  rintro ⟨d, hd, heq⟩
  split at heq
  · exact hnew heq.symm
  · exact h (heq ▸ hd)

end Names

namespace Crate

/-! ### Sections -/

variable (package : String) (settings : Settings)

/-- The sections in front of the dependencies. -/
def frontSections : List (String × Table) :=
  [("package", [("name", .text (crateNameFor package)), ("version", .text "0.1.0"),
      ("edition", .text settings.edition)]),
    ("lib", [("name", .text (package ++ "_c")), ("path", .text "src/lib.rs"),
      ("crate-type", .list [.text "cdylib"])])]

/-- The lines in front of the dependencies. -/
def frontLines : List String := [
  "[package]",
  "name = \"" ++ crateNameFor package ++ "\"",
  "version = \"0.1.0\"",
  "edition = \"" ++ settings.edition ++ "\"",
  "",
  "[lib]",
  "name = \"" ++ package ++ "_c\"",
  "path = \"src/lib.rs\"",
  "crate-type = [\"cdylib\"]",
  ""]

/-- The sections of a crate's manifest. -/
def manifestSections (crates : List (String × Table)) : List (String × Table) :=
  frontSections package settings ++
    [("dependencies", sectionTable crates),
      ("build-dependencies", [("cbindgen", .text settings.headerToolVersion)]), ("workspace", [])]

/-- The lines of a crate's manifest but the last one. -/
def manifestLines (dependencies : List String) : List String :=
  frontLines package settings ++ ("[dependencies]" :: dependencies ++ [
    "",
    "[build-dependencies]",
    "cbindgen = \"" ++ settings.headerToolVersion ++ "\"",
    ""])

variable {package settings}

lemma manifestText_eq (dependencies : List String) : manifestText package dependencies settings =
    textOfLines (manifestLines package settings dependencies ++ ["[workspace]"]) := by
  rw [manifestText, manifestLines, frontLines]
  simp only [List.append_assoc, List.cons_append, List.nil_append]

section Lines

variable (hpackage : isPlainText package = true) (hedition : isPlainText settings.edition = true)
  (hversion : isPlainText settings.headerToolVersion = true)

include hpackage in
lemma isPlainText_crateNameFor : isPlainText (crateNameFor package) = true := by
  rw [isPlainText, crateNameFor, String.toList_append, List.all_append, Bool.and_eq_true]
  exact ⟨all_replaceChar (by decide) hpackage, by decide⟩

include hpackage in
lemma isPlainText_libraryName : isPlainText (package ++ "_c") = true := by
  rw [isPlainText, String.toList_append, List.all_append, Bool.and_eq_true]
  exact ⟨hpackage, by decide⟩

include hpackage hedition in
lemma writes_frontLines :
    Writes (frontSections package settings) (frontLines package settings) := by
  have hname : Assigns ("name", .text (crateNameFor package))
      ("name = \"" ++ crateNameFor package ++ "\"") :=
    .quoted (by decide) (isPlainText_crateNameFor hpackage)
  have hversion : Assigns ("version", .text "0.1.0") "version = \"0.1.0\"" :=
    .quoted (by decide) (by decide)
  have hedition : Assigns ("edition", .text settings.edition)
      ("edition = \"" ++ settings.edition ++ "\"") :=
    .quoted (by decide) hedition
  have hlibrary : Assigns ("name", .text (package ++ "_c")) ("name = \"" ++ package ++ "_c\"") := by
    have hline : "name = \"" ++ package ++ "_c\"" = "name = \"" ++ (package ++ "_c") ++ "\"" := by
      have hsplit : "_c\"" = "_c" ++ "\"" := rfl
      rw [hsplit]
      simp only [String.append_assoc]
    rw [hline]
    exact .quoted (by decide) (isPlainText_libraryName hpackage)
  have hpath : Assigns ("path", .text "src/lib.rs") "path = \"src/lib.rs\"" :=
    .quoted (by decide) (by decide)
  have hkind : Assigns ("crate-type", .list [.text "cdylib"]) "crate-type = [\"cdylib\"]" := by
    have hlist : ReadsBack (.list [.text "cdylib"]) "[\"cdylib\"]" :=
      readsBack_list (.cons (readsBack_quoted (by decide)) .nil)
    exact .mk (by decide) hlist
  have hpackage := Writes.nil.append_section "package" (by decide)
    List.not_mem_nil (.cons hname (.cons hversion (.cons hedition .nil))) (by simp)
  exact (hpackage.empty.append_section "lib" (by decide) (by simp)
    (.cons hlibrary (.cons hpath (.cons hkind .nil))) (by simp)).empty

include hpackage hedition hversion in
/-- The lines of a crate's manifest write down its sections. -/
lemma writes_manifestLines {crates : List (String × Table)} {dependencies : List String}
    (hdependencies : List.Forall₂ (fun e entry => Assigns (e.1, .table e.2) entry) crates
      dependencies)
    (hdistinct : (crates.map Prod.fst).Nodup) :
    Writes (manifestSections package settings crates)
      (manifestLines package settings dependencies ++ ["[workspace]"]) := by
  have hassigns : List.Forall₂ Assigns (sectionTable crates) dependencies :=
    List.forall₂_map_left_iff.mpr hdependencies
  have htool : Assigns ("cbindgen", .text settings.headerToolVersion)
      ("cbindgen = \"" ++ settings.headerToolVersion ++ "\"") :=
    .quoted (by decide) hversion
  have hneeded := ((writes_frontLines hpackage hedition).append_section "dependencies"
    (by decide) (by simp [frontSections]) hassigns
    (by rwa [map_fst_sectionTable])).empty
  have hbuild := (hneeded.append_section "build-dependencies"
    (by decide) (by simp [frontSections]) (.cons htool .nil)
    (List.nodup_singleton _)).empty
  have hall := hbuild.header "workspace" (by decide)
    (by simp [frontSections])
  rw [manifestSections, manifestLines]
  simp only [List.append_assoc, List.cons_append, List.nil_append] at hall ⊢
  exact hall

end Lines

end Crate

end AbiBridge
