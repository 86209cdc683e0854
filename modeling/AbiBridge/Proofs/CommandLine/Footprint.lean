import AbiBridge.Proofs.CommandLine.Course

/-!
What commands write.

Nothing is written before everything is valid: a crate is only written when there are settings, the
manifest could be read and all its registrations were made, and showing a crate writes nothing at
all. Where a crate was written and was not to be formatted, its three files hold what the crate
says, and every other file is as it was.

* `Crate.WrittenIn`: the files of a crate in a tree, and all other files as they are in another one;
* `Crate.writes_flush`: what writing a crate makes of the files;
* `commands_footprint`: what the commands make of them.
-/

namespace AbiBridge

open Outcome

/-! ### The places of a crate -/

/-- Parts that do not lead back are added to a place. -/
lemma Location.foldl_child {parts : List String} (h : ∀ part ∈ parts, part ≠ "..")
    (loc : Location) : parts.foldl Location.child loc = loc ++ parts := by
  induction parts generalizing loc with
  | nil => exact (List.append_nil loc).symm
  | cons part parts ih =>
      obtain ⟨hpart, hparts⟩ := List.forall_mem_cons.mp h
      rw [List.foldl_cons, Location.child, if_neg hpart, ih hparts, List.append_assoc]
      rfl

namespace Crate

variable (c : Crate)

/-- The place of a file of the crate. -/
def place (parts : List String) : Location := Location.ofPath c.folder ++ parts

lemma ofPath_join {parts : List String} (h : ∀ part ∈ parts, part ≠ "..") :
    Location.ofPath (c.folder.join ⟨.relative, parts⟩) = c.place parts := by
  have hjoin : c.folder.join ⟨.relative, parts⟩ = ⟨c.folder.anchor, c.folder.parts ++ parts⟩ := rfl
  rw [hjoin, Location.ofPath, List.foldl_append, Location.foldl_child h]
  rfl

lemma ofPath_buildScriptPath : Location.ofPath (buildScriptPath c.folder) = c.place ["build.rs"] :=
  c.ofPath_join (by decide)

lemma ofPath_manifestPath : Location.ofPath (manifestPath c.folder) = c.place ["Cargo.toml"] :=
  c.ofPath_join (by decide)

lemma ofPath_libraryPath : Location.ofPath (libraryPath c.folder) = c.place ["src", "lib.rs"] :=
  c.ofPath_join (by decide)

/-- A file of the crate is at no place that is always a directory. -/
lemma isBase_place (front : List String) (name : String) (hback : name ≠ "..")
    (hroot : name ≠ "/") : (c.place (front ++ [name])).isBase = false := by
  rw [place, ← List.append_assoc]
  exact Location.isBase_concat _ hback hroot

lemma place_ne (front front' : List String) {name name' : String} (h : name ≠ name') :
    c.place (front ++ [name]) ≠ c.place (front' ++ [name']) := by
  intro heq
  have hlast := congrArg List.getLast? heq
  rw [place, place, ← List.append_assoc, ← List.append_assoc, List.getLast?_concat,
    List.getLast?_concat] at hlast
  exact h (Option.some.inj hlast)

/-! ### Writing a crate -/

/-- In the second tree there are the files of the crate, whatever was at their places before, and
all other files are those of the first one. -/
structure WrittenIn (t t' : FileTree) : Prop where
  script : t'.content? (c.place ["build.rs"]) = some (buildScript c.package c.settings).toUTF8
  manifest : t'.content? (c.place ["Cargo.toml"]) =
    some (manifestText c.package c.dependencies c.settings).toUTF8
  library : t'.content? (c.place ["src", "lib.rs"]) = some c.librarySource.toUTF8
  others : ∀ loc, loc ∉ [c.place ["build.rs"], c.place ["Cargo.toml"], c.place ["src", "lib.rs"]] →
    t'.content? loc = t.content? loc

/-- The files of the crate with their places. -/
def contents : List (Location × ByteArray) :=
  [(c.place ["build.rs"], (buildScript c.package c.settings).toUTF8),
    (c.place ["Cargo.toml"], (manifestText c.package c.dependencies c.settings).toUTF8),
    (c.place ["src", "lib.rs"], c.librarySource.toUTF8)]

/-- A crate that is not to be formatted is written by way of its three files. -/
lemma writes_flush (hbare : c.settings.runFormatter = false) (formatter : Formatter) :
    Writes c.contents (c.flush formatter) := by
  have hscript := c.isBase_place [] "build.rs" (by decide) (by decide)
  have hmanifest := c.isBase_place [] "Cargo.toml" (by decide) (by decide)
  have hlibrary := c.isBase_place ["src"] "lib.rs" (by decide) (by decide)
  rw [List.nil_append, ← ofPath_buildScriptPath] at hscript
  rw [List.nil_append, ← ofPath_manifestPath] at hmanifest
  rw [List.singleton_append, ← ofPath_libraryPath] at hlibrary
  rw [contents, ← ofPath_buildScriptPath, ← ofPath_manifestPath, ← ofPath_libraryPath, Crate.flush,
    hbare]
  split
  · exact .throw_bind
  · exact (Writes.makeDirectories _).bind fun _ =>
      ((Writes.writeFile hscript _).bind fun _ => .pure _).bind fun script =>
      ((((Writes.writeFile hmanifest _).bind fun _ => .pure _).bind fun _ => .pure _).bind fun _ =>
      (Writes.write hlibrary _).bind fun _ => (Writes.log _ _).bind fun _ =>
      (Writes.log _ _).bind fun _ => .pure _)

/-- A crate that is not to be formatted is written into its three files, and into no other. -/
lemma writtenIn_of_flush {formatter : Formatter} {w w' : World} {folder : Path}
    (hbare : c.settings.runFormatter = false) (h : c.flush formatter w = .ok folder w') :
    c.WrittenIn w.files w'.files ∧ w'.commands = w.commands := by
  obtain ⟨hfiles, hcommands⟩ := c.writes_flush hbare formatter w folder w' h
  have hscript : c.place ["build.rs"] ≠ c.place ["Cargo.toml"] :=
    c.place_ne [] [] (by decide)
  have hscript' : c.place ["build.rs"] ≠ c.place ["src", "lib.rs"] :=
    c.place_ne [] ["src"] (by decide)
  have hmanifest : c.place ["Cargo.toml"] ≠ c.place ["src", "lib.rs"] :=
    c.place_ne [] ["src"] (by decide)
  simp only [withWritten, contents, List.foldl_cons, List.foldl_nil] at hfiles
  refine ⟨⟨?_, ?_, ?_, fun loc hloc => ?_⟩, hcommands⟩
  · rw [hfiles, Function.update_of_ne hscript', Function.update_of_ne hscript,
      Function.update_self]
  · rw [hfiles, Function.update_of_ne hmanifest, Function.update_self]
  · rw [hfiles, Function.update_self]
  · simp only [List.mem_cons, List.not_mem_nil, or_false, not_or] at hloc
    rw [hfiles, Function.update_of_ne hloc.2.2, Function.update_of_ne hloc.2.1,
      Function.update_of_ne hloc.1]

end Crate

/-! ### Settings of a run without formatter -/

/-- The flag for a run without formatter counts for more than the settings that were found. -/
lemma Settings.runFormatter_of_load {files : FileTree} {start : Path} {settings : Settings}
    (h : Settings.load files start (Command.overrides true) = .ok settings) :
    settings.runFormatter = false := by
  obtain ⟨fields, -, h⟩ := bind_eq_ok.mp h
  have h := mapError_eq_ok.mp (mapError_eq_ok.mp h)
  have hgiven : Settings.override fields (Command.overrides true) =
      fields.put "run_formatter" (.boolean false) := rfl
  rw [hgiven, Settings.check] at h
  have hfield : Table.optional (fields.put "run_formatter" (.boolean false)) "run_formatter" true
      Value.asBoolean = .ok false := by
    rw [Table.optional, Table.find?, List.findSome?_cons, Table.put, Assoc.lookup_put_self]
    rfl
  rw [hfield] at h
  obtain ⟨⟨_, _, _, _, _⟩, hfields, rfl⟩ := map_eq_ok.mp h
  simp only [Checked.both_eq_ok_iff] at hfields
  exact (Except.ok.inj hfields.2.2.2.1).symm

namespace Command

/-- The crate of a manifest has the settings that were found for it. -/
lemma Declares.settings_eq {files : FileTree} {manifest : Path} {output : Destination}
    {settings : Settings} {c : Crate} (h : Declares files manifest output settings c) :
    c.settings = settings := by
  obtain ⟨m, path, -, -, hregister⟩ := h.registered
  have hframed := m.orderly_register.framed _ _ (.refl (m.newCrate manifest.parent path settings))
  rw [after_of_ok hregister] at hframed
  exact hframed.settings

/-- **Nothing is written before everything is valid.** Where there are no settings, or the manifest
cannot be read, or one of its registrations fails, all files and directories stay as they are;
showing a crate never changes them. Where a crate was written without the formatter, its three files
hold the build script, the manifest and the library of the crate that the manifest declares, and
every other file is as it was. -/
theorem commands_footprint (w : World) (manifest : Path) :
    (∀ (output : Destination) (unformatted verbose : Bool) (formatter : Formatter),
      ((∀ c, ¬Builds w.files manifest output unformatted c) →
        (after (generate manifest output unformatted verbose formatter) w).files = w.files) ∧
      ∀ w', generate manifest output unformatted verbose formatter w = .ok .success w' →
        ∃ settings c,
          Settings.load w.files manifest.parent (overrides unformatted) = .ok settings ∧
          Declares w.files manifest output settings c ∧
          (unformatted = true ∨ settings.runFormatter = false →
            c.WrittenIn w.files w'.files ∧ w'.commands = w.commands)) ∧
    (after (inspect manifest) w).files = w.files := by
  refine ⟨fun output unformatted verbose formatter => ⟨fun hunbuilt => ?_, fun w' hok => ?_⟩, ?_⟩
  · have hcourse := generateCourse manifest output unformatted verbose formatter w
    rw [after]
    generalize generate manifest output unformatted verbose formatter w = result at hcourse ⊢
    cases hcourse with
    | refused _ _ _ => rfl
    | escaped _ _ _ => rfl
    | unwritten hbuilt _ _ _ => exact absurd hbuilt (hunbuilt _)
    | written hbuilt _ _ _ => exact absurd hbuilt (hunbuilt _)
  · have hcourse := generateCourse manifest output unformatted verbose formatter w
    rw [hok] at hcourse
    cases hcourse with
    | @written c j folder _ hbuilt _ hflushed _ =>
        obtain ⟨settings, hload, hdeclared⟩ := hbuilt
        refine ⟨settings, c, hload, hdeclared, fun hbare => ?_⟩
        have hsettings : settings.runFormatter = false := by
          rcases hbare with rfl | hbare
          · exact Settings.runFormatter_of_load hload
          · exact hbare
        have hbare : c.settings.runFormatter = false := by rw [hdeclared.settings_eq, hsettings]
        have hwritten := c.writtenIn_of_flush (w := { w with journal := j }) hbare hflushed
        exact hwritten
  · have hcourse := inspectCourse manifest w
    rw [after]
    generalize inspect manifest w = result at hcourse ⊢
    cases hcourse <;> rfl

/-- A manifest of a package alone is written, and one that is not there is not. -/
theorem commands_footprint_demo :
    let files := FileTree.withFile {} ["ffi.toml"] "[package]\nname = \"demo\"\n".toUTF8
    (∃ w' settings c,
      generate ⟨.relative, ["ffi.toml"]⟩ .declared true false .absent { files } = .ok .success w' ∧
        Declares files ⟨.relative, ["ffi.toml"]⟩ .declared settings c ∧
        c.WrittenIn files w'.files ∧ w'.commands = []) ∧
    (∀ c, ¬Builds files ⟨.relative, ["other.toml"]⟩ .declared true c) ∧
    (after (generate ⟨.relative, ["other.toml"]⟩ .declared true false .absent) { files }).files =
      files := by
  intro files
  have hsuccess := eq_ok_of_run'_eq_some
    (x := generate ⟨.relative, ["ffi.toml"]⟩ .declared true false .absent) (s := { files })
    (a := .success) (by decide +kernel)
  have hmissing : ∀ c, ¬Builds files ⟨.relative, ["other.toml"]⟩ .declared true c := by
    rintro c ⟨settings, -, hpresent, -⟩
    have hnone : (files.isFile ⟨.relative, ["other.toml"]⟩).toOption = some false := by
      decide +kernel
    rw [hpresent] at hnone
    cases hnone
  obtain ⟨hwritten, -⟩ := commands_footprint { files } ⟨.relative, ["ffi.toml"]⟩
  obtain ⟨hunwritten, -⟩ := commands_footprint { files } ⟨.relative, ["other.toml"]⟩
  refine ⟨?_, hmissing, (hunwritten .declared true false .absent).1 hmissing⟩
  obtain ⟨settings, c, -, hdeclared, hfiles⟩ :=
    (hwritten .declared true false .absent).2 _ hsuccess
  obtain ⟨hwrittenIn, hcommands⟩ := hfiles (Or.inl rfl)
  exact ⟨_, settings, c, hsuccess, hdeclared, hwrittenIn, hcommands⟩

end Command

end AbiBridge
