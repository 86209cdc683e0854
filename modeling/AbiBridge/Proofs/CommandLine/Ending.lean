import AbiBridge.Proofs.CommandLine.Course

/-!
How commands end.

A command that succeeds has logged no error, and one that fails has logged exactly one. A few
failures have no wording, and these are left to the caller: that the path of the manifest is too
long, that no directory is named for the crate, and that the place of the settings in their document
is neither a table nor a list of pairs.

* `Ends`: the ways in which a command ends, with the failures that it leaves to its caller;
* `command_ends`: both commands end in one of these ways, whatever the files, the flags and the
  formatter;
* `settings_number_escapes`: a number in the place of the settings is not told as an error.
-/

namespace AbiBridge

namespace Command

/-- A command ends with a success and logs no error, or with a failure and logs exactly one, or else
with one of the failures that are left to the caller. -/
inductive Ends (leaves : Failure → Prop) (w : World) :
    EStateM.Result Failure World ExitStatus → Prop
  | success {w' : World} (kept : ∀ f, ¬leaves f) (quiet : w.journal.GoesOn 0 w'.journal) :
      Ends leaves w (.ok .success w')
  | failure {w' : World} (kept : ∀ f, ¬leaves f) (told : w.journal.GoesOn 1 w'.journal) :
      Ends leaves w (.ok .failure w')
  | left {f : Failure} {w' : World} (escapes : leaves f) : Ends leaves w (.error f w')

variable {files : FileTree} {manifest : Path} {output : Destination}

lemma GenerateCourse.ends {unformatted : Bool} {formatter : Formatter} {w : World}
    {result : EStateM.Result Failure World ExitStatus}
    (h : GenerateCourse manifest output unformatted formatter w result) :
    Ends (Escapes w.files manifest output unformatted) w result := by
  cases h with
  | refused _ hkept htold => exact .failure hkept htold
  | escaped _ hescapes _ => exact .left hescapes
  | unwritten hbuilt _ _ htold => exact .failure hbuilt.kept htold
  | written hbuilt _ _ hquiet => exact .success hbuilt.kept hquiet

lemma InspectCourse.ends {w : World} {result : EStateM.Result Failure World ExitStatus}
    (h : InspectCourse manifest w result) :
    Ends (EscapesPreparing w.files manifest .declared) w result := by
  cases h with
  | refused _ hkept htold => exact .failure hkept htold
  | escaped hescapes => exact .left hescapes
  | shown hdeclared hquiet =>
      exact .success hdeclared.kept (hquiet.trans (Journal.goesOn_log _ (by decide) _))

/-- **How commands end.** Whatever the files, the flags and the formatter, a command that writes or
shows a crate succeeds without an error in the journal or fails with exactly one, unless the failure
is one of the few that are left to the caller. -/
theorem command_ends (w : World) (manifest : Path) :
    (∀ (output : Destination) (unformatted verbose : Bool) (formatter : Formatter),
      Ends (Escapes w.files manifest output unformatted) w
        (generate manifest output unformatted verbose formatter w)) ∧
    Ends (EscapesPreparing w.files manifest .declared) w (inspect manifest w) :=
  ⟨fun output unformatted verbose formatter =>
    (generateCourse manifest output unformatted verbose formatter w).ends,
    (inspectCourse manifest w).ends⟩

/-- What is wrong with the place of the settings, if it is this that is wrong. -/
def shapeFault? : Except Failure Settings → Option ShapeFault
  | .error (.settingsShape fault) => some fault
  | _ => none

lemma eq_error_of_shapeFault? {x : Except Failure Settings} {fault : ShapeFault}
    (h : shapeFault? x = some fault) : x = .error (.settingsShape fault) := by
  rw [shapeFault?.eq_def] at h
  split at h
  · cases h
    rfl
  · cases h

/-- A number in the place of the settings is a failure that is left to the caller; no error is
logged. -/
theorem settings_number_escapes :
    let files : FileTree := (FileTree.withFile {} ["ffi.toml"]
      "[package]\nname = \"demo\"\n".toUTF8).withFile ["pyproject.toml"]
      "[tool]\nffiber = 1\n".toUTF8
    let run := generate ⟨.relative, ["ffi.toml"]⟩ .declared true false .succeeds
    (∃ j, run { files } = .error (.settingsShape (.noParts "int")) { files, journal := j } ∧
      Journal.GoesOn 0 {} j) ∧
    ¬∃ status w', run { files } = .ok status w' := by
  intro files run
  have hload : Settings.load files {} (overrides true) =
      .error (.settingsShape (.noParts "int")) :=
    eq_error_of_shapeFault? (by decide +kernel)
  have hrun : ∃ j,
      run { files } = .error (.settingsShape (.noParts "int")) { files, journal := j } ∧
      Journal.GoesOn 0 {} j := by
    have hescapes : Escapes files ⟨.relative, ["ffi.toml"]⟩ .declared true
        (.settingsShape (.noParts "int")) := .settings hload rfl
    have hcourse :=
      generateCourse ⟨.relative, ["ffi.toml"]⟩ .declared true false .succeeds { files }
    change GenerateCourse _ _ _ _ _ (run { files }) at hcourse
    generalize run { files } = result at hcourse ⊢
    cases hcourse with
    | refused _ hkept _ => exact absurd hescapes (hkept _)
    | unwritten hbuilt _ _ _ => exact absurd hescapes (hbuilt.kept _)
    | written hbuilt _ _ _ => exact absurd hescapes (hbuilt.kept _)
    | @escaped f j _ hleft hquiet =>
        cases hleft with
        | settings hload' _ =>
            cases hload.symm.trans hload'
            exact ⟨j, rfl, hquiet⟩
        | preparing hload' _ => cases hload.symm.trans hload'
  refine ⟨hrun, ?_⟩
  obtain ⟨j, hfail, -⟩ := hrun
  rintro ⟨status, w', hok⟩
  cases hfail.symm.trans hok

end Command

end AbiBridge
