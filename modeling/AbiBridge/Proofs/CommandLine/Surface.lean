import AbiBridge.Proofs.CommandLine.Course
import AbiBridge.Proofs.Manifest.Surface

/-!
What is shown of a crate and what is written of it.

The two commands make different crates of one manifest: they lie in different places, and only one
of them has the settings that were found. Yet they export the same.

* `Command.Mirrored`: the library that was written and the table that is shown have one surface, and
  both commands tell its size;
* `inspect_mirrors_generate`: so it is wherever a crate was written.
-/

namespace AbiBridge

open Outcome

namespace Command

/-- From `w` to `w'` a crate was written, and from `v` to `v'` a table is shown. The headers of the
functions in the lines of which the library was made and the rows of the table are those of the same
entries, and both commands tell how many there are. -/
structure Mirrored (manifest : Path) (output : Destination) (unformatted : Bool)
    (formatter : Formatter) (w w' v v' : World) (entries : List Entry) : Prop where
  written : ∃ c j folder, Builds w.files manifest output unformatted c ∧
    c.flush formatter { w with journal := j } = .ok folder w' ∧
    c.emitter.lines.filter opensExport = entries.map Entry.header ∧
    w.journal.Tells w'.journal .info (exportsText c.folder entries.length)
  shown : ∃ table, v'.listings = v.listings ++ [table] ∧ table.rows = entries.map Entry.row
  told : v.journal.Tells v'.journal .info s!"{entries.length} exported functions"
  /-- No two entries have one name. -/
  nodup : (entries.map Entry.name).Nodup
  definite : ∀ e ∈ entries, e.Definite

/-- The crates of a manifest with all settings and in all places have one surface. -/
lemma Declares.exists_surfaces {files : FileTree} {manifest : Path} {output : Destination}
    {settings : Settings} {c : Crate} (h : Declares files manifest output settings c) :
    ∃ entries, c.emitter.frames = [] ∧ c.Surfaces entries ∧ ∀ settings', ∃ c',
      Declares files manifest .declared settings' c' ∧ c'.Surfaces entries := by
  obtain ⟨hpresent, m, path, hload, -, hregister⟩ := h
  obtain ⟨entries, hentries⟩ := Manifest.exists_surfaces hregister
  obtain ⟨c', hsame, hclosed, hsurface⟩ := hentries manifest.parent path settings
  cases hregister.symm.trans hsame
  refine ⟨entries, hclosed, hsurface, fun settings' => ?_⟩
  obtain ⟨c', hregister', -, hsurface'⟩ := hentries manifest.parent none settings'
  exact ⟨c', ⟨hpresent, m, none, hload, rfl, hregister'⟩, hsurface'⟩

/-- A crate is shown by the entries of its surface, with their number. -/
lemma InspectCourse.exists_shown {manifest : Path} {v : World} {c : Crate} {entries : List Entry}
    {result : EStateM.Result Failure World ExitStatus} (h : InspectCourse manifest v result)
    (hdeclared : Declares v.files manifest .declared { runFormatter := false } c)
    (hsurface : c.Surfaces entries) :
    ∃ v', result = .ok .success v' ∧
      (∃ table, v'.listings = v.listings ++ [table] ∧ table.rows = entries.map Entry.row) ∧
      v.journal.Tells v'.journal .info s!"{entries.length} exported functions" := by
  have hlength : c.signatures.length = entries.length := by
    rw [← Listing.length_rows_ofCrate, hsurface.rows, List.length_map]
  cases h with
  | refused hundeclared _ _ => exact absurd hdeclared (hundeclared c)
  | escaped hescapes => exact absurd hescapes (hdeclared.kept _)
  | @shown c' j hdeclared' hquiet =>
      cases hdeclared.unique hdeclared'
      rw [hlength]
      exact ⟨_, rfl, ⟨_, rfl, hsurface.rows⟩, hquiet.tells .info _ []⟩

/-- **What is shown is what is written.** Wherever a crate was written, whatever the settings, the
place and the formatter, the manifest is shown without a failure, and the rows of the table are in
their order those of the functions in the library: one row with the name, the parameters and the
result of each header. Both commands tell the number of the rows. -/
theorem inspect_mirrors_generate (manifest : Path) (output : Destination)
    (unformatted verbose : Bool) (formatter : Formatter) (w w' v : World)
    (hgenerate : generate manifest output unformatted verbose formatter w = .ok .success w')
    (hfiles : v.files = w.files) :
    ∃ v' entries, inspect manifest v = .ok .success v' ∧
      Mirrored manifest output unformatted formatter w w' v v' entries := by
  have hcourse := generateCourse manifest output unformatted verbose formatter w
  rw [hgenerate] at hcourse
  cases hcourse with
  | @written c j folder _ hbuilt hquiet hflushed _ =>
      obtain ⟨settings, hload, hdeclared⟩ := hbuilt
      obtain ⟨entries, hclosed, hsurface, hothers⟩ := hdeclared.exists_surfaces
      obtain ⟨c', hdeclared', hsurface'⟩ := hothers { runFormatter := false }
      rw [← hfiles] at hdeclared'
      obtain ⟨v', hinspect, hshown, htold⟩ :=
        (inspectCourse manifest v).exists_shown hdeclared' hsurface'
      have htells : w.journal.Tells w'.journal .info (exportsText c.folder entries.length) := by
        rcases logsFirst_flush hclosed formatter { w with journal := j } with
          ⟨_, _, hfailed, -⟩ | ⟨notes, hnotes⟩
        · rw [hflushed] at hfailed
          cases hfailed
        · rw [after_of_ok hflushed, ← hsurface.length_eq] at hnotes
          rw [hnotes]
          exact hquiet.tells .info _ notes
      exact ⟨v', entries, hinspect,
        ⟨c, j, folder, ⟨settings, hload, hdeclared⟩, hflushed, hsurface.headers, htells⟩,
        hshown, htold, hsurface.nodup, hsurface.definite⟩

/-- A handle and a function, written elsewhere and with a formatter. -/
theorem inspect_mirrors_generate_pool :
    let files := FileTree.withFile {} ["ffi.toml"]
      ("[package]\nname=\"pool\"\n[[structs]]\nname=\"Pool\"\n[[functions]]\nname=\"load\"\n" ++
        "ret=\"u8\"\n").toUTF8
    let manifest : Path := ⟨.relative, ["ffi.toml"]⟩
    let output := Destination.directory ⟨.relative, ["out"]⟩
    let rows := [["Pool_free", "self_: *mut ::std::os::raw::c_void", "()"], ["load", "-", "u8"]]
    ∃ w' v' entries,
      generate manifest output false true .succeeds { files } = .ok .success w' ∧
        inspect manifest { files } = .ok .success v' ∧
        Mirrored manifest output false .succeeds { files } w' { files } v' entries ∧
        v'.listings.map Listing.rows = [rows] := by
  intro files manifest output rows
  have hgenerate := eq_ok_of_run'_eq_some
    (x := generate manifest output false true .succeeds) (s := { files }) (a := .success)
    (by decide +kernel)
  have hrows : (after (inspect manifest) { files }).listings.map Listing.rows = [rows] := by
    decide +kernel
  obtain ⟨v', entries, hinspect, hmirrored⟩ :=
    inspect_mirrors_generate manifest output false true .succeeds _ _ { files } hgenerate rfl
  rw [after_of_ok hinspect] at hrows
  exact ⟨_, v', entries, hgenerate, hinspect, hmirrored, hrows⟩

end Command

end AbiBridge
