import AbiBridge.Proofs.CommandLine.Course

/-!
The command that writes a crate, and the run.

A crate can be written by the command or by `Run.generate`, which tells of no failure and gives it
to its caller. The command does what the run does, and only tells more: it succeeds if the run does,
and leaves the same files and the same record of commands, also where they fail.

* `IgnoresJournal`: what a run does does not depend on what has been told;
* `Crate.ignoresJournal_flush`: so it is with the writing of a crate;
* `Run.generate_of_builds`, `Run.generate_of_unbuilt`: how the run ends;
* `generate_followsRun`: the command ends as the run does.
-/

namespace AbiBridge

open Outcome Text

/-! ### Runs that do not look at the journal -/

section Journal

variable {α β : Type}

/-- A result with another journal. -/
def withJournal (j : Journal) :
    EStateM.Result Failure World α → EStateM.Result Failure World α
  | .ok a w => .ok a { w with journal := j }
  | .error f w => .error f { w with journal := j }

/-- In worlds that differ in their journals alone, the run does the same. -/
def IgnoresJournal (x : Run α) : Prop :=
  ∀ w j, ∃ j', x { w with journal := j } = withJournal j' (x w)

namespace IgnoresJournal

variable {x : Run α}

lemma pure (a : α) : IgnoresJournal (Pure.pure a : Run α) := fun _ j => ⟨j, rfl⟩

lemma throw (f : Failure) : IgnoresJournal (MonadExcept.throw f : Run α) := fun _ j => ⟨j, rfl⟩

lemma log (level : Level) (text : String) : IgnoresJournal (Run.log level text) :=
  fun _ j => ⟨j.log level text, rfl⟩

lemma filing (x : Filing α) : IgnoresJournal (Run.filing x) := by
  intro w j
  refine ⟨j, ?_⟩
  rw [Run.filing, Run.filing]
  cases x w.files <;> rfl

lemma bind {f : α → Run β} (hx : IgnoresJournal x) (hf : ∀ a, IgnoresJournal (f a)) :
    IgnoresJournal (x >>= f) := by
  intro w j
  obtain ⟨j₁, hrun⟩ := hx w j
  cases hfirst : x w with
  | ok a w₁ =>
      rw [hfirst] at hrun
      obtain ⟨j₂, hrest⟩ := hf a w₁ j₁
      exact ⟨j₂, by rw [run_bind hrun, run_bind hfirst, hrest]⟩
  | error failure w₁ =>
      rw [hfirst] at hrun
      exact ⟨j₁, by rw [run_bind_of_error hrun, run_bind_of_error hfirst]; rfl⟩

lemma ite_bind {c : Prop} [Decidable c] {x : Run Unit} {f : Unit → Run α} (hx : IgnoresJournal x)
    (hf : ∀ u, IgnoresJournal (f u)) : IgnoresJournal (if c then x >>= f else f ()) := by
  split
  · exact hx.bind hf
  · exact hf ()

lemma writeFile (path : Path) (text : String) : IgnoresJournal (Run.writeFile path text) :=
  (filing _).bind fun _ => filing _

lemma format (formatter : Formatter) (command : List String) (paths : List Path) :
    IgnoresJournal (Run.format formatter command paths) := by
  refine (log _ _).bind fun _ => bind (fun _ j => ⟨j, rfl⟩) fun _ => ?_
  cases formatter with
  | succeeds => exact .pure _
  | refuses code output => exact .throw _
  | absent => exact .throw _

end IgnoresJournal

end Journal

/-- How a crate is written does not depend on what has been told. -/
lemma Crate.ignoresJournal_flush (c : Crate) (formatter : Formatter) :
    IgnoresJournal (c.flush formatter) := by
  rw [flush]
  refine .ite_bind (.throw _) fun _ => (IgnoresJournal.filing _).bind fun _ => ?_
  refine ((IgnoresJournal.writeFile _ _).bind fun _ => .pure _).bind fun script => ?_
  refine (((IgnoresJournal.writeFile _ _).bind fun _ => .pure _).bind fun _ => .pure _).bind
    fun _ => ?_
  refine (IgnoresJournal.filing _).bind fun _ => (IgnoresJournal.log _ _).bind fun _ => ?_
  exact .ite_bind (.format _ _ _) fun _ => (IgnoresJournal.log _ _).bind fun _ => .pure _

/-! ### How the run ends -/

namespace Run

open Command

/-- The switch for the formatter that stands for the flag of the command. -/
def switchFor (unformatted : Bool) : Option Bool := if unformatted then some false else none

variable {manifest : Path} {output : Destination} {unformatted : Bool} (formatter : Formatter)
  {w : World}

/-- A switch that is not given leaves the settings as they were found. -/
lemma settingsFor_switchFor (manifest : Path) (unformatted : Bool) (w : World) :
    settingsFor manifest
        [("run_formatter", (switchFor unformatted).elim Value.null Value.boolean)] w =
      (MonadExcept.ofExcept (Settings.load w.files manifest.parent (overrides unformatted)) :
        Run Settings) w := by
  cases unformatted <;> rfl

/-- A crate that the manifest declares is written. -/
lemma generate_of_builds {c : Crate} (h : Builds w.files manifest output unformatted c) :
    ∃ j, generate manifest output (switchFor unformatted) formatter w =
      c.flush formatter { w with journal := j } := by
  obtain ⟨settings, hload, -, m, path, hmanifest, hpath, hregister⟩ := h
  have hsettings := settingsFor_switchFor manifest unformatted w
  rw [hload] at hsettings
  have hprepare := runPrepare_eq manifest output settings w
  simp only [hmanifest, hpath, registering, hregister] at hprepare
  exact ⟨_, by rw [generate, run_bind hsettings, run_bind hprepare]⟩

/-- A manifest that can be read is there. -/
lemma isFile_of_load {files : FileTree} {m : Manifest} (h : Manifest.load files manifest = .ok m) :
    files.isFile manifest = .ok true := by
  rw [FileTree.isFile_iff]
  rw [Manifest.load] at h
  split at h
  · cases h
  · next content hread => exact ⟨content, hread⟩

/-- Where the manifest declares no crate the run fails, and changes nothing but the journal. -/
lemma generate_of_unbuilt (h : ∀ c, ¬Builds w.files manifest output unformatted c) :
    ∃ f j, generate manifest output (switchFor unformatted) formatter w =
      .error f { w with journal := j } := by
  have hsettings := settingsFor_switchFor manifest unformatted w
  cases hload : Settings.load w.files manifest.parent (overrides unformatted) with
  | error f =>
      rw [hload] at hsettings
      exact ⟨f, w.journal, run_bind_of_error hsettings⟩
  | ok settings =>
      rw [hload] at hsettings
      suffices hprepare : ∃ f j, prepare manifest output settings w =
          .error f { w with journal := j } by
        obtain ⟨f, j, hfail⟩ := hprepare
        exact ⟨f, j, by rw [generate, run_bind hsettings, run_bind_of_error hfail]⟩
      rw [runPrepare_eq]
      cases hmanifest : Manifest.load w.files manifest with
      | error f => exact ⟨f, w.journal, rfl⟩
      | ok m =>
          cases hpath : output.path? with
          | error f => exact ⟨f, w.journal, rfl⟩
          | ok path =>
              dsimp only
              rw [registering]
              cases hregister : m.register (m.newCrate manifest.parent path settings) with
              | error f c => exact ⟨f, _, rfl⟩
              | ok _ c =>
                  exact absurd ⟨settings, hload, isFile_of_load hmanifest, m, path, hmanifest,
                    hpath, hregister⟩ (h c)

end Run

/-! ### The command and the run -/

namespace Command

/-- **The command follows the run.** It succeeds where the run does, and leaves the same world, up
to what it has told. -/
theorem generate_followsRun (manifest : Path) (output : Destination) (unformatted verbose : Bool)
    (formatter : Formatter) (w : World) :
    let run := Run.generate manifest output (Run.switchFor unformatted) formatter
    let command := generate manifest output unformatted verbose formatter
    ((∃ w', command w = .ok .success w') ↔ ∃ folder w', run w = .ok folder w') ∧
      ∃ j, after command w = { after run w with journal := j } := by
  intro run command
  have hcourse : GenerateCourse manifest output unformatted formatter w (command w) :=
    generateCourse manifest output unformatted verbose formatter w
  rw [after]
  generalize command w = result at hcourse ⊢
  have hbuilt : ∀ {c j}, Builds w.files manifest output unformatted c →
      ∃ j', run w = withJournal j' (c.flush formatter { w with journal := j }) := by
    intro c j hc
    obtain ⟨j₁, hrun⟩ := Run.generate_of_builds formatter hc
    obtain ⟨j₂, hflush⟩ := c.ignoresJournal_flush formatter { w with journal := j } j₁
    exact ⟨j₂, hrun.trans hflush⟩
  have hunbuilt : (∀ c, ¬Builds w.files manifest output unformatted c) →
      ∃ f j, run w = .error f { w with journal := j } :=
    Run.generate_of_unbuilt formatter
  have hfails : ∀ {f w'}, run w = .error f w' → ¬∃ folder w', run w = .ok folder w' := by
    rintro f w' hrun ⟨folder, w'', hok⟩
    rw [hrun] at hok
    cases hok
  cases hcourse with
  | @refused j hnone _ _ =>
      obtain ⟨f, j', hrun⟩ := hunbuilt hnone
      rw [after_of_error hrun]
      refine ⟨iff_of_false ?_ (hfails hrun), j, rfl⟩
      rintro ⟨_, ⟨⟩⟩
  | @escaped f j hnone _ _ =>
      obtain ⟨f', j', hrun⟩ := hunbuilt hnone
      rw [after_of_error hrun]
      refine ⟨iff_of_false ?_ (hfails hrun), j, rfl⟩
      rintro ⟨_, ⟨⟩⟩
  | @unwritten c j j' f w' hc _ hunwritten _ =>
      obtain ⟨j₁, hrun⟩ := hbuilt (j := j) hc
      rw [hunwritten] at hrun
      rw [after_of_error hrun]
      refine ⟨iff_of_false ?_ (hfails hrun), j', rfl⟩
      rintro ⟨_, ⟨⟩⟩
  | @written c j folder w' hc _ hflushed _ =>
      obtain ⟨j₁, hrun⟩ := hbuilt (j := j) hc
      rw [hflushed] at hrun
      rw [after_of_ok hrun]
      exact ⟨iff_of_true ⟨w', rfl⟩ ⟨folder, _, hrun⟩, w'.journal, rfl⟩

end Command

end AbiBridge
