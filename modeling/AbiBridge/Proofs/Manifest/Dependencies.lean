import AbiBridge.Proofs.Crate.ManifestText
import AbiBridge.Proofs.Crate.Telling
import AbiBridge.Proofs.Files.Path
import AbiBridge.Proofs.Manifest.Order

/-!
What the manifest of a crate says of the crates it needs.

The entries of the dependencies are made first, one for each crate in the order of the manifest, and
no other registration touches them. So the manifest of the crate writes down what was registered. It
is read back as that if the names in it need neither quotes nor escapes, since none are written.

* `Manifest.exists_entries_of_register`: the dependencies of the crate are those of the manifest;
* `Manifest.Transcribable`: no name needs quotes or escapes, and the values keep their inline form;
* `Manifest.parse_manifestText_of_register`: then the manifest of the crate is read back;
* `Manifest.parse_manifestText_of_blank`: it is no document if there is a blank in the name of the
  first crate.
-/

namespace AbiBridge

open Outcome Toml

/-! ### What is registered -/

/-- A crate with the given entries for its dependencies. -/
def Crate.Depends (entries : List String) (c : Crate) : Prop := c.dependencies = entries

namespace Registering

variable {entries : List String}

lemma keeps_depends_exportWrapper (w : Wrapper) (origin : String) :
    Keeps (Crate.Depends entries) (exportWrapper w origin) := by
  refine Keeps.bind (Keeps.bind (fun c hc => hc) fun c => ?_) fun _ c hc => ?_
  · split
    · exact .throw _
    · exact fun c hc => hc
  · rw [after, emission]
    cases w.emit c.emitter <;> exact hc

lemma keeps_depends_register (d : Descriptor) : Keeps (Crate.Depends entries) (register d) := by
  unfold register
  split
  · exact .throw _
  · refine (keeps_depends_exportWrapper _ _).bind fun _ => ?_
    exact Keeps.bind (fun c hc => hc) fun _ => Keeps.bind (fun c hc => hc) fun _ => .pure _

lemma keeps_depends_addMethod (owner : Option BoundaryType) (d : Descriptor) :
    Keeps (Crate.Depends entries) (addMethod owner d) := by
  rw [addMethod.eq_def]
  split
  · split
    · exact .throw _
    · exact keeps_depends_register _
  · exact .throw _

lemma keeps_depends_addDestructor (name : String) (params : List BoundaryType) :
    Keeps (Crate.Depends entries) (addDestructor name params) := by
  unfold addDestructor
  split
  · exact .throw _
  · exact (keeps_depends_exportWrapper _ _).bind fun _ c hc => hc

lemma keeps_depends_addHandle (t : Option BoundaryType) (traits : List DerivedTrait) :
    Keeps (Crate.Depends entries) (addHandle t traits) := by
  rw [addHandle.eq_def]
  split
  · refine (keeps_depends_addDestructor _ _).bind fun _ => ?_
    refine .ite_bind (keeps_depends_addMethod _ _).discard fun _ => ?_
    refine .ite_bind (keeps_depends_addMethod _ _).discard fun _ => ?_
    refine .ite_bind (fun c hc => hc) fun _ => ?_
    exact .ite (keeps_depends_addMethod _ _).discard (.pure ())
  · exact .throw _

/-- The dependencies that are added come behind the others, in their order. -/
lemma exists_entries_of_forM {crates : List (String × Table)} {c c' : Crate}
    (h : (crates.forM fun e => addDependency e.1 e.2) c = .ok () c') :
    ∃ entries, List.Forall₂ (fun e entry => dependencyEntry e.1 e.2 = .ok entry) crates entries ∧
      c'.dependencies = c.dependencies ++ entries := by
  induction crates generalizing c with
  | nil =>
      cases h
      exact ⟨[], .nil, (List.append_nil _).symm⟩
  | cons e crates ih =>
      have h : (addDependency e.1 e.2 >>= fun _ => crates.forM fun e => addDependency e.1 e.2) c =
          .ok () c' := h
      cases hentry : dependencyEntry e.1 e.2 with
      | error fault =>
          have hrun : addDependency e.1 e.2 c = .error (.registration fault) c := by
            rw [addDependency, hentry]
            rfl
          rw [run_bind_of_error hrun] at h
          cases h
      | ok entry =>
          have hrun : addDependency e.1 e.2 c =
              .ok () { c with dependencies := c.dependencies ++ [entry] } := by
            rw [addDependency, hentry]
            rfl
          rw [run_bind hrun] at h
          obtain ⟨entries, hentries, hdependencies⟩ := ih h
          exact ⟨entry :: entries, .cons hentry hentries,
            by rw [hdependencies, List.append_assoc, List.singleton_append]⟩

end Registering

namespace Manifest

variable {m : Manifest} {entries : List String}

lemma keeps_depends_steps : ∀ step ∈ m.steps, Keeps (Crate.Depends entries) step := by
  refine List.forall_mem_append.mpr ⟨?_, ?_⟩
  · exact List.forall_mem_map.mpr fun h _ =>
      (Keeps.ofExcept _).bind fun _ => Registering.keeps_depends_addHandle _ _
  · refine List.forall_mem_map.mpr fun f _ => ?_
    refine (Keeps.ofExcept _).bind fun d => (Keeps.ofExcept _).bind fun owner => ?_
    cases owner with
    | none => exact (Registering.keeps_depends_register _).discard
    | some t => exact (Registering.keeps_depends_addMethod _ _).discard

/-- The dependencies of the crate are those of the manifest, in their order. -/
lemma exists_entries_of_register {c c' : Crate} (h : m.register c = .ok () c') :
    ∃ entries,
      List.Forall₂ (fun e entry => Registering.dependencyEntry e.1 e.2 = .ok entry) m.crates
        entries ∧
      c'.dependencies = c.dependencies ++ entries := by
  rw [register_eq, front, bind_assoc] at h
  cases hcrates : (m.crates.forM fun e => Registering.addDependency e.1 e.2) c with
  | error failure c₁ =>
      rw [run_bind_of_error hcrates] at h
      cases h
  | ok _ c₁ =>
      obtain ⟨entries, hentries, hdependencies⟩ := Registering.exists_entries_of_forM hcrates
      rw [run_bind hcrates] at h
      have hkeeps : Keeps (Crate.Depends (c.dependencies ++ entries))
          (m.package.imports.forM Registering.addImport >>= fun _ => m.steps.forM id) :=
        (Keeps.forM fun _ _ c hc => hc).bind fun _ => .forM keeps_depends_steps
      have hrest := hkeeps c₁ hdependencies
      rw [after_of_ok h] at hrest
      exact ⟨entries, hentries, hrest⟩

end Manifest

/-! ### The folder -/

/-- A package whose name has no slash names a folder by one part. -/
lemma Path.ofString_crateNameFor {package : String} (h : '/' ∉ package.toList) :
    ofString (crateNameFor package) = ⟨.relative, [crateNameFor package]⟩ := by
  have hend : (crateNameFor package).toList =
      (replaceChar '_' '-' package).toList ++ ['-', 'c'] := by
    rw [crateNameFor, String.toList_append]
    rfl
  refine ofString_of_isPart ⟨fun heq => ?_, fun heq => ?_, ?_⟩
  · rw [heq] at hend
    exact absurd hend (by simp)
  · have hlength := congrArg List.length hend
    rw [heq, List.length_append] at hlength
    simp at hlength
  · rw [hend, List.mem_append, not_or]
    exact ⟨not_mem_replaceChar (by decide) h, by decide⟩

namespace Manifest

/-- What there has to be in a manifest and in the settings for the manifest of the crate to be read
as it is meant: names that need no quotes and no escapes, since none are written, values whose
inline form keeps them, and no slash in the name of the package, which names the folder too. -/
structure Transcribable (m : Manifest) (settings : Settings) : Prop where
  package : isPlainText m.package.name = true
  folder : '/' ∉ m.package.name.toList
  edition : isPlainText settings.edition = true
  version : isPlainText settings.headerToolVersion = true
  /-- No crate is named twice. -/
  distinct : (m.crates.map Prod.fst).Nodup
  crates : ∀ e ∈ m.crates, IsBareName e.1
  /-- No option of a crate is named twice. -/
  options_distinct : ∀ e ∈ m.crates, (e.2.map Prod.fst).Nodup
  options : ∀ e ∈ m.crates, ∀ o ∈ e.2, IsBareName o.1
  values : ∀ e ∈ m.crates, ∀ o ∈ e.2, Legible o.2

/-- The manifest of the crate as data: the crate that wraps the package, its library, the crates
that are needed, each with its options, and the header tool of the settings. -/
def crateTable (m : Manifest) (settings : Settings) : Table :=
  let package := replaceChar '-' '_' m.package.name
  [("package", .table [("name", .text (crateNameFor package)), ("version", .text "0.1.0"),
      ("edition", .text settings.edition)]),
    ("lib", .table [("name", .text (package ++ "_c")), ("path", .text "src/lib.rs"),
      ("crate-type", .list [.text "cdylib"])]),
    ("dependencies", .table (m.crates.map fun e => (e.1, .table e.2))),
    ("build-dependencies", .table [("cbindgen", .text settings.headerToolVersion)]),
    ("workspace", .table [])]

lemma crateTable_eq (m : Manifest) (settings : Settings) : m.crateTable settings =
    sectionTable (Crate.manifestSections (replaceChar '-' '_' m.package.name) settings m.crates) :=
  rfl

section Registered

variable {m : Manifest} {base : Path} {output : Option Path} {settings : Settings} {c : Crate}
  (h : m.register (m.newCrate base output settings) = .ok () c)

include h

/-- The crate is that of the package, with the settings of the run. -/
lemma frame_of_register : c.package = replaceChar '-' '_' m.package.name ∧ c.settings = settings ∧
    c.folder = (m.outputFolder base output).join
      (Path.ofString (crateNameFor (replaceChar '-' '_' m.package.name))) := by
  have hframe := (orderly_register m).framed _ _ (Crate.SameFrame.refl
    (m.newCrate base output settings))
  rw [after_of_ok h, newCrate, Crate.new] at hframe
  have hfolder := hframe.folder
  dsimp only at hfolder
  exact ⟨hframe.package, hframe.settings, hfolder⟩

/-- The characters of the crate's manifest are those of its lines. -/
lemma manifestText_of_register :
    ∃ entries,
      List.Forall₂ (fun e entry => Registering.dependencyEntry e.1 e.2 = .ok entry) m.crates
        entries ∧
      Crate.manifestText c.package c.dependencies c.settings =
        String.ofList (lineChars (Crate.manifestLines (replaceChar '-' '_' m.package.name) settings
          entries ++ ["[workspace]"])) := by
  obtain ⟨hpackage, hsettings, -⟩ := frame_of_register h
  obtain ⟨entries, hentries, hdependencies⟩ := exists_entries_of_register h
  have hnone : c.dependencies = entries := hdependencies
  refine ⟨entries, hentries, ?_⟩
  have hlast : "[workspace]".toList.getLast? = some ']' := by decide
  rw [hpackage, hsettings, hnone, Crate.manifestText_eq, textOfLines_append hlast (by decide)]

end Registered

/-- **What the manifest of a crate says.** If no name in it needs quotes or escapes, the text is
read as the crates with their options, the edition, the version of the header tool, and the name of
the crate, which is that of its folder. -/
theorem parse_manifestText_of_register {m : Manifest} {base : Path} {output : Option Path}
    {settings : Settings} {c : Crate} (ht : m.Transcribable settings)
    (h : m.register (m.newCrate base output settings) = .ok () c) :
    Toml.parse (Crate.manifestText c.package c.dependencies c.settings) =
        .ok (m.crateTable settings) ∧
      c.folder.parts.getLast? = some (crateNameFor c.package) := by
  constructor
  · obtain ⟨entries, hentries, htext⟩ := manifestText_of_register h
    have hassigns : List.Forall₂ (fun e entry => Assigns (e.1, .table e.2) entry) m.crates
        entries :=
      Listwise.imp_of_mem hentries fun e he entry hentry =>
        Registering.assigns_of_dependencyEntry hentry (ht.crates e he) (ht.options e he)
          (ht.values e he) (ht.options_distinct e he)
    have hpackage : isPlainText (replaceChar '-' '_' m.package.name) = true :=
      all_replaceChar (by decide) ht.package
    have hwrites := Crate.writes_manifestLines hpackage ht.edition ht.version hassigns ht.distinct
    rw [htext, crateTable_eq]
    exact hwrites.parse_eq
  · obtain ⟨hpackage, -, hfolder⟩ := frame_of_register h
    have hslash : '/' ∉ (replaceChar '-' '_' m.package.name).toList :=
      not_mem_replaceChar (by decide) ht.folder
    rw [hfolder, hpackage, Path.ofString_crateNameFor hslash, Path.join]
    exact List.getLast?_concat

/-- A manifest that needs two crates. -/
def needingTwo : Manifest where
  package := { name := "my-package" }
  crates := [("serde", [("version", .text "1"), ("features", .list [.text "derive"])]),
    ("wide-lib", [("path", .text "../wide lib"), ("optional", .boolean false)])]

/-- The manifest of a crate with two dependencies is read back. -/
theorem parse_manifestText_needingTwo :
    needingTwo.Transcribable {} ∧
      ∃ c : Crate, needingTwo.register (needingTwo.newCrate {} none {}) = .ok () c ∧
        Toml.parse (Crate.manifestText c.package c.dependencies c.settings) =
          .ok (needingTwo.crateTable {}) ∧
        c.folder.parts.getLast? = some (crateNameFor c.package) := by
  have hvalues : ∀ e ∈ needingTwo.crates, ∀ o ∈ e.2, Legible o.2 := by
    simp only [needingTwo, List.forall_mem_cons, List.not_mem_nil, false_imp_iff, implies_true,
      and_true]
    refine ⟨⟨.text (by decide), .list ?_⟩, .text (by decide), .boolean false⟩
    exact List.forall_mem_singleton.mpr (.text (by decide))
  have ht : needingTwo.Transcribable {} :=
    ⟨by decide, by decide, by decide, by decide, by decide, by decide, by decide, by decide,
      hvalues⟩
  exact ⟨ht, _, rfl, parse_manifestText_of_register ht rfl⟩

/-- A blank in the name of the first crate spoils the manifest, since the name is written without
quotes. -/
theorem parse_manifestText_of_blank {m : Manifest} {base : Path} {output : Option Path}
    {settings : Settings} {c : Crate} (name other : String) {options : Table}
    {crates : List (String × Table)}
    (hpackage : isPlainText m.package.name = true) (hedition : isPlainText settings.edition = true)
    (hname : IsBareName name) (hother : IsBareName other)
    (hcrates : m.crates = (name ++ " " ++ other, options) :: crates)
    (h : m.register (m.newCrate base output settings) = .ok () c) :
    Toml.parse (Crate.manifestText c.package c.dependencies c.settings) =
      .error .equalsExpected := by
  obtain ⟨entries, hentries, htext⟩ := manifestText_of_register h
  rw [hcrates] at hentries
  cases hentries with
  | @cons _ entry _ entries hentry _ =>
      obtain ⟨more, hmore⟩ := Registering.exists_eq_of_dependencyEntry hentry
      have hstart : entry.toList = name.toList ++ ' ' :: other.toList ++ more.toList := by
        rw [hmore, String.toList_append, String.toList_append, String.toList_append,
          List.append_assoc name.toList]
        rfl
      have hhead : ∃ c r, name.toList ++ ' ' :: other.toList = c :: r ∧ isSpace c = false := by
        obtain ⟨c, r, hcons, hc⟩ := hname.exists_cons
        exact ⟨c, _, by rw [hcons, List.cons_append], isSpace_of_isBare hc⟩
      have hreturn : '\r' ∉ name.toList ++ ' ' :: other.toList := by
        have hblank : '\r' ≠ ' ' := by decide
        simp [hname.unreturned, hother.unreturned, hblank]
      have hpackage : isPlainText (replaceChar '-' '_' m.package.name) = true :=
        all_replaceChar (by decide) hpackage
      have hfront := Crate.writes_frontLines hpackage hedition
      have hheader := hfront.header "dependencies" (by decide) (by simp [Crate.frontSections])
      have hparse := hheader.parse_eq_error hhead hreturn (fun d rest => by
        rw [List.append_assoc, List.cons_append]
        exact statement_of_blank hname hother d rest)
      have hlines : ∃ back, Crate.manifestLines (replaceChar '-' '_' m.package.name) settings
          (entry :: entries) ++ ["[workspace]"] =
            Crate.frontLines (replaceChar '-' '_' m.package.name) settings ++ ["[dependencies]"] ++
              ([entry] ++ back) :=
        ⟨_, by simp only [Crate.manifestLines, List.append_assoc, List.cons_append,
          List.nil_append]; rfl⟩
      obtain ⟨back, hlines⟩ := hlines
      rw [htext, hlines, lineChars_append, lineChars_append [entry], lineChars_singleton, hstart]
      simp only [List.append_assoc] at hparse ⊢
      exact hparse _

/-- A manifest that needs a crate with a blank in its name. -/
def needingBlank : Manifest where
  package := { name := "native" }
  crates := [("my crate", [("version", .text "1")])]

/-- The manifest of the crate is no document, although it is written. -/
theorem parse_manifestText_needingBlank :
    ∃ c : Crate, needingBlank.register (needingBlank.newCrate {} none {}) = .ok () c ∧
      Toml.parse (Crate.manifestText c.package c.dependencies c.settings) =
        .error .equalsExpected :=
  have hpackage : isPlainText needingBlank.package.name = true := by decide
  have hedition : isPlainText ({} : Settings).edition = true := by decide
  ⟨_, rfl, parse_manifestText_of_blank "my" "crate" hpackage hedition (by decide) (by decide) rfl
    rfl⟩

end Manifest

end AbiBridge
