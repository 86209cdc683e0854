import AbiBridge.CommandLine.Command
import AbiBridge.Proofs.Crate.Library
import AbiBridge.Proofs.Crate.Telling
import AbiBridge.Proofs.Files.Content
import AbiBridge.Proofs.Journal

/-!
The courses that a command can take.

A command gets its settings, reads the manifest and makes the registrations, and only then writes or
shows something. What it can come to is said here once, and everything else about the commands is
drawn from it.

* `Declares`, `Builds`: the crate of a manifest, without and with the settings of the run;
* `Escapes`: the failures that a command leaves to its caller;
* `Writing`: what is done when a crate is written logs no error, and its failures are told;
* `GenerateCourse`, `generateCourse`: the courses of writing a crate;
* `InspectCourse`, `inspectCourse`: the courses of showing it.
-/

namespace AbiBridge

open Outcome Text

namespace Command

/-! ### Failures that are told -/

section Reporting

variable {α : Type} {wording : Failure → Option String} {x : Run α} {w w' : World}

lemma reporting_of_ok {a : α} (h : x w = .ok a w') : reporting wording x w = .ok (some a) w' := by
  have hmap : (some <$> x : Run (Option α)) w = .ok (some a) w' := by
    rw [map_eq_pure_bind, run_bind h]
    rfl
  delta reporting
  change EStateM.tryCatch _ _ w = _
  rw [EStateM.tryCatch, hmap]

/-- A failure for which there is a wording is logged as an error. -/
lemma reporting_of_told {f : Failure} {text : String} (h : x w = .error f w')
    (htold : wording f = some text) :
    reporting wording x w = .ok none { w' with journal := w'.journal.log .error text } := by
  have hmap : (some <$> x : Run (Option α)) w = .error f w' := by
    rw [map_eq_pure_bind, run_bind_of_error h]
  delta reporting
  change EStateM.tryCatch _ _ w = _
  rw [EStateM.tryCatch, hmap]
  simp only [htold]
  rfl

/-- Another failure is left to the caller. -/
lemma reporting_of_untold {f : Failure} (h : x w = .error f w') (huntold : wording f = none) :
    reporting wording x w = .error f w' := by
  have hmap : (some <$> x : Run (Option α)) w = .error f w' := by
    rw [map_eq_pure_bind, run_bind_of_error h]
  delta reporting
  change EStateM.tryCatch _ _ w = _
  rw [EStateM.tryCatch, hmap]
  simp only [huntold]
  rfl

end Reporting

/-! ### What is there to do -/

/-- The values that are put over the settings that were found. -/
def overrides (unformatted : Bool) : Table :=
  if unformatted then [("run_formatter", .boolean false)] else []

/-- The manifest at a path is there and can be read, and its registrations make the crate. -/
structure Declares (files : FileTree) (manifest : Path) (output : Destination) (settings : Settings)
    (c : Crate) : Prop where
  present : files.isFile manifest = .ok true
  registered : ∃ m path, Manifest.load files manifest = .ok m ∧ output.path? = .ok path ∧
    m.register (m.newCrate manifest.parent path settings) = .ok () c

/-- There are settings for the run, with which the manifest declares the crate. -/
def Builds (files : FileTree) (manifest : Path) (output : Destination) (unformatted : Bool)
    (c : Crate) : Prop :=
  ∃ settings, Settings.load files manifest.parent (overrides unformatted) = .ok settings ∧
    Declares files manifest output settings c

/-- The failures to get a crate that are left to the caller: the path of the manifest is too long,
or the directory for the crate is not named and there is nothing wrong with the manifest as such. -/
inductive EscapesPreparing (files : FileTree) (manifest : Path) (output : Destination) :
    Failure → Prop
  | path {fault : FileFault} (tooLong : files.isFile manifest = .error fault) :
      EscapesPreparing files manifest output (.file fault)
  | output {m : Manifest} (present : files.isFile manifest = .ok true)
      (read : Manifest.load files manifest = .ok m) (unnamed : output = .unnamed) :
      EscapesPreparing files manifest output .destinationUnnamed

/-- The failures to write a crate that are left to the caller: the place of the settings is neither
a table nor a list of pairs, or the crate cannot be got. -/
inductive Escapes (files : FileTree) (manifest : Path) (output : Destination) (unformatted : Bool) :
    Failure → Prop
  | settings {fault : ShapeFault}
      (loaded : Settings.load files manifest.parent (overrides unformatted) =
        .error (.settingsShape fault))
      (noPair : (Failure.settingsShape fault).kind.isData = false) :
      Escapes files manifest output unformatted (.settingsShape fault)
  | preparing {settings : Settings} {f : Failure}
      (loaded : Settings.load files manifest.parent (overrides unformatted) = .ok settings)
      (escapes : EscapesPreparing files manifest output f) :
      Escapes files manifest output unformatted f

section Unique

variable {files : FileTree} {manifest : Path} {output : Destination}

/-- There is one crate with given settings. -/
lemma Declares.unique {settings : Settings} {c c' : Crate}
    (h : Declares files manifest output settings c)
    (h' : Declares files manifest output settings c') : c = c' := by
  obtain ⟨-, m, path, hload, hpath, hregister⟩ := h
  obtain ⟨-, m', path', hload', hpath', hregister'⟩ := h'
  cases hload.symm.trans hload'
  cases hpath.symm.trans hpath'
  cases hregister.symm.trans hregister'
  rfl

/-- Where there is a crate, no failure to get it is left to the caller. -/
lemma Declares.kept {settings : Settings} {c : Crate}
    (h : Declares files manifest output settings c) (f : Failure) :
    ¬EscapesPreparing files manifest output f := by
  obtain ⟨hpresent, m, path, -, hpath, -⟩ := h
  rintro (htooLong | ⟨-, -, rfl⟩)
  · rw [hpresent] at htooLong
    cases htooLong
  · cases hpath

lemma Builds.kept {unformatted : Bool} {c : Crate} (h : Builds files manifest output unformatted c)
    (f : Failure) : ¬Escapes files manifest output unformatted f := by
  obtain ⟨settings, hload, hdeclared⟩ := h
  rintro (⟨hload', -⟩ | ⟨-, hescapes⟩)
  · rw [hload] at hload'
    cases hload'
  · exact hdeclared.kept f hescapes

end Unique

/-! ### Which failures are told -/

lemma manifestTrouble_of_isData {f : Failure} (h : f.kind.isData = true) :
    manifestTrouble f = some (shown f) := by
  rw [manifestTrouble, h]
  rfl

/-- Everything that is wrong with what was to be registered is told. -/
lemma manifestTrouble_of_ofRegistration {f : Failure} (h : f.OfRegistration) :
    manifestTrouble f = some (shown f) := by
  have hkind : (f.kind.isData || f.kind = .wrongType) = true := by
    cases f with
    | type fault => cases fault <;> rfl
    | descriptor fault =>
        cases fault with
        | illegalType fault => cases fault <;> rfl
        | _ => rfl
    | typeText _ => rfl
    | scope _ => rfl
    | registration _ => rfl
    | _ => cases h
  rw [manifestTrouble, if_pos hkind]

/-- A file that is there can be read, so a manifest that cannot be got from it is malformed. -/
lemma manifestTrouble_of_load {files : FileTree} {manifest : Path} {f : Failure}
    (hpresent : files.isFile manifest = .ok true)
    (h : Manifest.load files manifest = .error f) : manifestTrouble f = some (shown f) := by
  obtain ⟨content, hcontent⟩ := FileTree.isFile_iff.mp hpresent
  rw [Manifest.load, hcontent] at h
  dsimp only at h
  rw [Manifest.ofBytes] at h
  split at h
  · cases h
    rfl
  · cases h
    exact manifestTrouble_of_isData rfl
  · next t _ =>
    cases hvalue : Manifest.ofValue (.table t) with
    | ok m =>
        rw [hvalue] at h
        cases h
    | error report =>
        rw [hvalue] at h
        cases h
        exact manifestTrouble_of_isData rfl

/-- Settings that cannot be got are malformed, or their place is of another shape. -/
lemma faultsAs_settings (files : FileTree) (start : Path) (given : Table) :
    FaultsAs (fun f => f.kind.isData = true ∨ ∃ fault, f = .settingsShape fault)
      (Settings.load files start given) := by
  refine FaultsAs.bind ?_ fun fields => .mapError fun _ => Or.inl rfl
  rw [Settings.nearestFields]
  split
  · exact .throw (Or.inl rfl)
  · cases Settings.nearest? files (.ofPath start) with
    | none => exact .pure []
    | some content =>
        change FaultsAs _ (Settings.fieldsOfBytes content)
        rw [Settings.fieldsOfBytes]
        split
        · exact .throw (Or.inl rfl)
        · next fault _ =>
          refine .throw (Or.inl ?_)
          cases fault <;> rfl
        · exact .mapError fun fault => Or.inr ⟨fault, rfl⟩

lemma exists_settingsTrouble {f : Failure} (h : f.kind.isData = true) :
    ∃ text, settingsTrouble f = some text := by
  rw [settingsTrouble, h]
  by_cases hmessage : f.message = "" <;> simp [hmessage]

lemma settingsTrouble_of_not_isData {f : Failure} (h : f.kind.isData = false) :
    settingsTrouble f = none := by
  rw [settingsTrouble, h]
  rfl

/-! ### Getting a crate -/

/-- The courses of getting the crate of a manifest. Nothing but the journal is changed. -/
inductive PrepareCourse (manifest : Path) (output : Destination) (settings : Settings) (w : World) :
    EStateM.Result Failure World (Option Crate) → Prop
  /-- The crate is made. -/
  | made {c : Crate} {j : Journal} (declared : Declares w.files manifest output settings c)
      (quiet : w.journal.GoesOn 0 j) :
      PrepareCourse manifest output settings w (.ok (some c) { w with journal := j })
  /-- There is none, and it is told why. -/
  | refused {j : Journal} (undeclared : ∀ c, ¬Declares w.files manifest output settings c)
      (kept : ∀ f, ¬EscapesPreparing w.files manifest output f) (told : w.journal.GoesOn 1 j) :
      PrepareCourse manifest output settings w (.ok none { w with journal := j })
  /-- There is none, and the failure is left to the caller. -/
  | escaped {f : Failure} (undeclared : ∀ c, ¬Declares w.files manifest output settings c)
      (escapes : EscapesPreparing w.files manifest output f) :
      PrepareCourse manifest output settings w (.error f w)

/-- The run by which a crate is got, if its manifest is there. -/
lemma runPrepare_eq (manifest : Path) (output : Destination) (settings : Settings) (w : World) :
    Run.prepare manifest output settings w =
      match Manifest.load w.files manifest, output.path? with
      | .error f, _ => .error f w
      | .ok _, .error f => .error f w
      | .ok m, .ok path =>
          Run.registering m.register (m.newCrate manifest.parent path settings) w := by
  have hget : Run.prepare manifest output settings w = (do
      let m ← MonadExcept.ofExcept (Manifest.load w.files manifest)
      let output ← MonadExcept.ofExcept output.path?
      Run.registering m.register (m.newCrate manifest.parent output settings)) w := rfl
  rw [hget]
  cases Manifest.load w.files manifest with
  | error f => rfl
  | ok m => cases output.path? <;> rfl

/-- The run by which a command gets a crate. -/
lemma prepare_eq (manifest : Path) (output : Destination) (settings : Settings) (w : World) :
    prepare manifest output settings w =
      match w.files.isFile manifest with
      | .error fault => .error (.file fault) w
      | .ok true => reporting manifestTrouble (Run.prepare manifest output settings) w
      | .ok false =>
          let text := "Manifest not found: " ++ escapeMarkup manifest.text
          .ok none { w with journal := w.journal.log .error text } := by
  have hget : prepare manifest output settings w = (do
      if ← MonadExcept.ofExcept ((w.files.isFile manifest).mapError Failure.file) then
        reporting manifestTrouble (Run.prepare manifest output settings)
      else
        Run.log .error ("Manifest not found: " ++ escapeMarkup manifest.text)
        return none) w := rfl
  rw [hget]
  cases w.files.isFile manifest with
  | error fault => rfl
  | ok present => cases present <;> rfl

section Prepare

variable {manifest : Path} {output : Destination} {settings : Settings} {w : World}

lemma prepare_of_declares {c : Crate} (h : Declares w.files manifest output settings c) :
    ∃ j, w.journal.GoesOn 0 j ∧
      prepare manifest output settings w = .ok (some c) { w with journal := j } := by
  obtain ⟨hpresent, m, path, hload, hpath, hregister⟩ := h
  have hquiet := m.orderly_register.quiet (m.newCrate manifest.parent path settings)
    fun n hn => absurd hn List.not_mem_nil
  rw [after_of_ok hregister] at hquiet
  refine ⟨_, w.journal.goesOn_addAll hquiet, ?_⟩
  rw [prepare_eq, hpresent]
  refine reporting_of_ok ?_
  simp only [runPrepare_eq, hload, hpath, Run.registering, hregister]

lemma prepare_of_escapes {f : Failure} (h : EscapesPreparing w.files manifest output f) :
    prepare manifest output settings w = .error f w := by
  cases h with
  | path htooLong => rw [prepare_eq, htooLong]
  | output hpresent hload hunnamed =>
      rw [prepare_eq, hpresent]
      refine reporting_of_untold ?_ rfl
      simp only [runPrepare_eq, hload, hunnamed, Destination.path?]

/-- There is a crate, or a failure that is left to the caller, or it is told why there is none. -/
lemma prepare_cases (manifest : Path) (output : Destination) (settings : Settings) (w : World) :
    (∃ c, Declares w.files manifest output settings c) ∨
      (∃ f, EscapesPreparing w.files manifest output f) ∨
      ∃ j, w.journal.GoesOn 1 j ∧
        prepare manifest output settings w = .ok none { w with journal := j } := by
  cases hpresent : w.files.isFile manifest with
  | error fault => exact Or.inr (Or.inl ⟨_, .path hpresent⟩)
  | ok present =>
      cases present with
      | false =>
          rw [prepare_eq, hpresent]
          exact Or.inr (Or.inr ⟨_, w.journal.goesOn_log_error _, rfl⟩)
      | true =>
          rw [prepare_eq, hpresent]
          have hrun := runPrepare_eq manifest output settings w
          cases hload : Manifest.load w.files manifest with
          | error f =>
              rw [hload] at hrun
              exact Or.inr (Or.inr ⟨_, w.journal.goesOn_log_error _,
                reporting_of_told hrun (manifestTrouble_of_load hpresent hload)⟩)
          | ok m =>
              cases hpath : output.path? with
              | error f =>
                  have hunnamed : output = .unnamed := by
                    cases output <;> cases hpath
                    rfl
                  exact Or.inr (Or.inl ⟨_, .output hpresent hload hunnamed⟩)
              | ok path =>
                  have horderly := m.orderly_register
                  have hquiet := horderly.quiet (m.newCrate manifest.parent path settings)
                    fun n hn => absurd hn List.not_mem_nil
                  cases hregister : m.register (m.newCrate manifest.parent path settings) with
                  | ok _ c => exact Or.inl ⟨c, hpresent, m, path, hload, hpath, hregister⟩
                  | error f c =>
                      rw [after_of_error hregister] at hquiet
                      simp only [hload, hpath, Run.registering, hregister] at hrun
                      exact Or.inr (Or.inr ⟨_, (w.journal.goesOn_addAll hquiet).trans
                        (Journal.goesOn_log_error _ _), reporting_of_told hrun
                          (manifestTrouble_of_ofRegistration (horderly.fails _ f c hregister))⟩)

end Prepare

theorem prepareCourse (manifest : Path) (output : Destination) (settings : Settings) (w : World) :
    PrepareCourse manifest output settings w (prepare manifest output settings w) := by
  rcases prepare_cases manifest output settings w with ⟨c, h⟩ | ⟨f, h⟩ | ⟨j, htold, hrun⟩
  · obtain ⟨j, hquiet, hrun⟩ := prepare_of_declares h
    rw [hrun]
    exact .made h hquiet
  · have hrun : prepare manifest output settings w = .error f w := prepare_of_escapes h
    rw [hrun]
    refine .escaped (fun c hc => ?_) h
    obtain ⟨j, -, hmade⟩ := prepare_of_declares hc
    cases hrun.symm.trans hmade
  · rw [hrun]
    refine .refused (fun c hc => ?_) (fun f hf => ?_) htold
    · obtain ⟨j, -, hmade⟩ := prepare_of_declares hc
      cases hrun.symm.trans hmade
    · cases hrun.symm.trans (prepare_of_escapes hf)

/-! ### Writing a crate -/

/-- A run in which no error is logged, and which fails with what is told where a crate cannot be
written. -/
structure Writing {α : Type} (x : Run α) : Prop where
  quiet : ∀ j : Journal, Keeps (fun w => j.GoesOn 0 w.journal) x
  fails : FailsAs (fun f => ∃ text, outputTrouble f = some text) x

namespace Writing

variable {α β : Type} {x : Run α}

lemma pure (a : α) : Writing (Pure.pure a : Run α) := ⟨fun _ => .pure a, .pure a⟩

lemma throw {f : Failure} (h : ∃ text, outputTrouble f = some text) :
    Writing (MonadExcept.throw f : Run α) :=
  ⟨fun _ => .throw f, .throw h⟩

lemma bind {f : α → Run β} (hx : Writing x) (hf : ∀ a, Writing (f a)) : Writing (x >>= f) :=
  ⟨fun j => (hx.quiet j).bind fun a => (hf a).quiet j, hx.fails.bind fun a => (hf a).fails⟩

lemma ite_bind {c : Prop} [Decidable c] {x : Run Unit} {f : Unit → Run α} (hx : Writing x)
    (hf : ∀ u, Writing (f u)) : Writing (if c then x >>= f else f ()) :=
  ⟨fun j => .ite_bind (hx.quiet j) fun u => (hf u).quiet j,
    .ite_bind hx.fails fun u => (hf u).fails⟩

lemma discard (hx : Writing x) : Writing (Functor.discard x) := hx.bind fun _ => .pure ()

lemma log {level : Level} (h : level ≠ .error) (text : String) : Writing (Run.log level text) :=
  ⟨fun _ w hw => hw.trans (w.journal.goesOn_log h text), .of_ok fun _ => ⟨(), _, rfl⟩⟩

/-- There is a wording for every failure of files. -/
lemma exists_outputTrouble_file (fault : FileFault) :
    ∃ text, outputTrouble (.file fault) = some text := by
  obtain ⟨problem, path⟩ := fault
  cases problem <;> exact ⟨_, rfl⟩

lemma of_onFiles (h : OnFiles x) : Writing x := by
  refine ⟨fun j w hw => ?_, fun w f w' hfail => ?_⟩
  · dsimp only
    rw [h.journal_eq]
    exact hw
  · obtain ⟨fault, rfl⟩ := h.of_error w f w' hfail
    exact exists_outputTrouble_file fault

lemma writeFile (path : Path) (text : String) : Writing (Run.writeFile path text) :=
  .of_onFiles (onFiles_writeFile path text)

lemma format (formatter : Formatter) (command : List String) (paths : List Path) :
    Writing (Run.format formatter command paths) := by
  refine (log (by decide) _).bind fun _ => ?_
  -- the command is on record before it is known how it ends
  refine bind ⟨fun j w hw => hw, .of_ok fun w => ⟨(), _, rfl⟩⟩ fun _ => ?_
  cases formatter with
  | succeeds => exact .pure _
  | refuses code output => exact .throw ⟨_, rfl⟩
  | absent => exact .throw (exists_outputTrouble_file _)

lemma flush (c : Crate) (formatter : Formatter) : Writing (c.flush formatter) := by
  rw [Crate.flush]
  refine .ite_bind (.throw ⟨_, rfl⟩) fun _ => (of_onFiles (.filing _)).bind fun _ => ?_
  refine ((writeFile _ _).bind fun _ => .pure _).bind fun script => ?_
  refine ((writeFile _ _).bind fun _ => .pure _).discard.bind fun _ => ?_
  refine (of_onFiles (.filing _)).bind fun _ => (log (by decide) _).bind fun _ => ?_
  exact .ite_bind (format _ _ _) fun _ => (log (by decide) _).bind fun _ => .pure _

end Writing

/-- The courses of writing the crate of a manifest. -/
inductive GenerateCourse (manifest : Path) (output : Destination) (unformatted : Bool)
    (formatter : Formatter) (w : World) : EStateM.Result Failure World ExitStatus → Prop
  /-- There is no crate, and it is told why. Nothing but the journal is changed. -/
  | refused {j : Journal} (unbuilt : ∀ c, ¬Builds w.files manifest output unformatted c)
      (kept : ∀ f, ¬Escapes w.files manifest output unformatted f) (told : w.journal.GoesOn 1 j) :
      GenerateCourse manifest output unformatted formatter w (.ok .failure { w with journal := j })
  /-- There is no crate, and the failure is left to the caller. Nothing but the journal changes. -/
  | escaped {f : Failure} {j : Journal}
      (unbuilt : ∀ c, ¬Builds w.files manifest output unformatted c)
      (escapes : Escapes w.files manifest output unformatted f) (quiet : w.journal.GoesOn 0 j) :
      GenerateCourse manifest output unformatted formatter w (.error f { w with journal := j })
  /-- There is a crate, and it is told why it cannot be written or formatted. -/
  | unwritten {c : Crate} {j j' : Journal} {f : Failure} {w' : World}
      (built : Builds w.files manifest output unformatted c) (quiet : w.journal.GoesOn 0 j)
      (fails : c.flush formatter { w with journal := j } = .error f w')
      (told : w.journal.GoesOn 1 j') :
      GenerateCourse manifest output unformatted formatter w
        (.ok .failure { w' with journal := j' })
  /-- There is a crate, and it is written. -/
  | written {c : Crate} {j : Journal} {folder : Path} {w' : World}
      (built : Builds w.files manifest output unformatted c) (quiet : w.journal.GoesOn 0 j)
      (flushed : c.flush formatter { w with journal := j } = .ok folder w')
      (quiet' : w.journal.GoesOn 0 w'.journal) :
      GenerateCourse manifest output unformatted formatter w (.ok .success w')

/-- What is done once there are settings. -/
def generateWith (manifest : Path) (output : Destination) (formatter : Formatter)
    (settings : Settings) : Run ExitStatus := do
  Run.log .info ("Reading [path]" ++ escapeMarkup manifest.text ++ "[/path]")
  match ← prepare manifest output settings with
  | none => return .failure
  | some crate =>
      match ← reporting outputTrouble (crate.flush formatter) with
      | none => return .failure
      | some _ => return .success

/-- The run by which a crate is written, in a world that keeps more messages if more are asked
for. -/
lemma generate_eq (manifest : Path) (output : Destination) (unformatted verbose : Bool)
    (formatter : Formatter) (w : World) : ∃ j, w.journal.GoesOn 0 j ∧
      generate manifest output unformatted verbose formatter w =
        (reporting settingsTrouble (Run.settingsFor manifest (overrides unformatted)) >>= fun
          | none => pure .failure
          | some settings => generateWith manifest output formatter settings)
        { w with journal := j } := by
  cases verbose with
  | false => exact ⟨w.journal, .refl _, rfl⟩
  | true =>
      have hleast : ∀ level : Level, Level.debug.rank ≤ level.rank := by
        intro level
        cases level <;> decide
      exact ⟨{ w.journal with threshold := .debug },
        ⟨hleast _, [], (List.append_nil _).symm, rfl⟩, rfl⟩

section Generate

variable {manifest : Path} {output : Destination} {unformatted : Bool} {formatter : Formatter}
  {w : World}

/-- What is done once there are settings, from the journal on that has been written up to there. -/
lemma generateWith_course {settings : Settings} {j : Journal} (hquiet : w.journal.GoesOn 0 j)
    (hload : Settings.load w.files manifest.parent (overrides unformatted) = .ok settings) :
    GenerateCourse manifest output unformatted formatter w
      (generateWith manifest output formatter settings { w with journal := j }) := by
  have hbuilds : ∀ c, Builds w.files manifest output unformatted c ↔
      Declares w.files manifest output settings c := by
    intro c
    constructor
    · rintro ⟨settings', hload', hdeclared⟩
      cases hload.symm.trans hload'
      exact hdeclared
    · exact fun hdeclared => ⟨settings, hload, hdeclared⟩
  obtain ⟨j₁, hquiet₁, hlog⟩ : ∃ j₁, w.journal.GoesOn 0 j₁ ∧
      Run.log .info ("Reading [path]" ++ escapeMarkup manifest.text ++ "[/path]")
        { w with journal := j } = .ok () { w with journal := j₁ } :=
    ⟨_, hquiet.trans (j.goesOn_log (by decide) _), rfl⟩
  rw [generateWith, run_bind hlog]
  have hcourse := prepareCourse manifest output settings { w with journal := j₁ }
  cases hprepare : prepare manifest output settings { w with journal := j₁ } with
  | error f w' =>
      rw [hprepare] at hcourse
      rw [run_bind_of_error hprepare]
      cases hcourse with
      | escaped hundeclared hescapes =>
          exact .escaped (fun c hc => hundeclared c ((hbuilds c).mp hc))
            (.preparing hload hescapes) hquiet₁
  | ok crate w' =>
      rw [hprepare] at hcourse
      rw [run_bind hprepare]
      cases hcourse with
      | refused hundeclared hkept htold =>
          refine .refused (fun c hc => hundeclared c ((hbuilds c).mp hc)) (fun f hf => ?_)
            (hquiet₁.trans htold)
          cases hf with
          | settings hload' _ => rw [hload] at hload'; cases hload'
          | preparing _ hescapes => exact hkept f hescapes
      | @made c j₂ hdeclared hmade =>
          have hbuilt := (hbuilds c).mpr hdeclared
          have hquiet₂ := hquiet₁.trans hmade
          have hwriting := Writing.flush c formatter
          have hflushQuiet := hwriting.quiet w.journal { w with journal := j₂ } hquiet₂
          cases hflush : c.flush formatter { w with journal := j₂ } with
          | ok folder w' =>
              rw [after_of_ok hflush] at hflushQuiet
              have hrun : reporting outputTrouble (c.flush formatter) { w with journal := j₂ } =
                  .ok (some folder) w' := reporting_of_ok hflush
              simp only [run_bind hrun]
              exact .written hbuilt hquiet₂ hflush hflushQuiet
          | error f w' =>
              rw [after_of_error hflush] at hflushQuiet
              obtain ⟨text, htext⟩ := hwriting.fails _ f w' hflush
              simp only [run_bind (reporting_of_told hflush htext)]
              exact .unwritten hbuilt hquiet₂ hflush
                (hflushQuiet.trans (Journal.goesOn_log_error _ text))

end Generate

/-- Writing the crate of a manifest takes one of the courses. -/
theorem generateCourse (manifest : Path) (output : Destination) (unformatted verbose : Bool)
    (formatter : Formatter) (w : World) :
    GenerateCourse manifest output unformatted formatter w
      (generate manifest output unformatted verbose formatter w) := by
  obtain ⟨j, hquiet, hrun⟩ := generate_eq manifest output unformatted verbose formatter w
  rw [hrun]
  have hsettings : Run.settingsFor manifest (overrides unformatted) { w with journal := j } =
      (MonadExcept.ofExcept (Settings.load w.files manifest.parent (overrides unformatted)) :
        Run Settings) { w with journal := j } := rfl
  cases hload : Settings.load w.files manifest.parent (overrides unformatted) with
  | ok settings =>
      rw [hload] at hsettings
      rw [run_bind (reporting_of_ok hsettings)]
      exact generateWith_course hquiet hload
  | error f =>
      rw [hload] at hsettings
      have hunbuilt : ∀ c, ¬Builds w.files manifest output unformatted c := by
        rintro c ⟨settings, hload', -⟩
        rw [hload] at hload'
        cases hload'
      cases hdata : f.kind.isData with
      | true =>
          obtain ⟨text, htext⟩ := exists_settingsTrouble hdata
          rw [run_bind (reporting_of_told hsettings htext)]
          refine .refused hunbuilt (fun f' hf' => ?_)
            (hquiet.trans (Journal.goesOn_log_error _ text))
          cases hf' with
          | settings hload' hkind =>
              cases hload.symm.trans hload'
              rw [hdata] at hkind
              cases hkind
          | preparing hload' _ => rw [hload] at hload'; cases hload'
      | false =>
          rw [run_bind_of_error
            (reporting_of_untold hsettings (settingsTrouble_of_not_isData hdata))]
          rcases faultsAs_settings _ _ _ f hload with hisData | ⟨fault, rfl⟩
          · rw [hdata] at hisData
            cases hisData
          · exact .escaped hunbuilt (.settings hload hdata) hquiet

/-! ### Showing a crate -/

/-- The courses of showing what the crate of a manifest would export. -/
inductive InspectCourse (manifest : Path) (w : World) :
    EStateM.Result Failure World ExitStatus → Prop
  /-- There is no crate, and it is told why. -/
  | refused {j : Journal}
      (undeclared : ∀ c, ¬Declares w.files manifest .declared { runFormatter := false } c)
      (kept : ∀ f, ¬EscapesPreparing w.files manifest .declared f) (told : w.journal.GoesOn 1 j) :
      InspectCourse manifest w (.ok .failure { w with journal := j })
  /-- There is no crate, and the failure is left to the caller. -/
  | escaped {f : Failure} (escapes : EscapesPreparing w.files manifest .declared f) :
      InspectCourse manifest w (.error f w)
  /-- There is a crate, and its table is shown with the number of its signatures. -/
  | shown {c : Crate} {j : Journal}
      (declared : Declares w.files manifest .declared { runFormatter := false } c)
      (quiet : w.journal.GoesOn 0 j) :
      InspectCourse manifest w (.ok .success { w with
        journal := j.log .info s!"{c.signatures.length} exported functions"
        listings := w.listings ++ [.ofCrate c] })

/-- Showing the crate of a manifest takes one of the courses. -/
theorem inspectCourse (manifest : Path) (w : World) :
    InspectCourse manifest w (inspect manifest w) := by
  have hcourse := prepareCourse manifest .declared { runFormatter := false } w
  rw [inspect]
  cases hprepare : prepare manifest .declared { runFormatter := false } w with
  | error f w' =>
      rw [hprepare] at hcourse
      rw [run_bind_of_error hprepare]
      cases hcourse with
      | escaped _ hescapes => exact .escaped hescapes
  | ok crate w' =>
      rw [hprepare] at hcourse
      rw [run_bind hprepare]
      cases hcourse with
      | refused hundeclared hkept htold => exact .refused hundeclared hkept htold
      | made hdeclared hquiet => exact .shown hdeclared hquiet

end Command

end AbiBridge
