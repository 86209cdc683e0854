import AbiBridge.Proofs.Source.Step

/-!
Steps that are refused.

Nothing that is written is ever taken back, and a step that is refused leaves no trace: neither in
the lines nor in the scopes, their arms, the guards and the files.

* `Emitter.Sound`: what holds of the scopes that are open;
* `Emitter.Sound.step`: every step keeps it;
* `misuse_harmless`: so it holds in every session, and there every refused step is harmless.
-/

namespace AbiBridge

open Emitter Outcome

/-- What holds of the scopes that are open in a session. -/
structure Emitter.Sound (e : Emitter) : Prop where
  /-- A match has no more arms than were declared, and where an arm is open, it was begun. -/
  arms : ∀ f ∈ e.frames, ∀ m, f.scope = .arms m →
    m.emitted ≤ m.patterns.length ∧ (m.inBlock = true → 1 ≤ m.emitted)
  /-- The outermost scope is a function. -/
  outermost : ∀ f ∈ e.frames.getLast?, f.scope.kind = .function

namespace Emitter.Sound

variable {e e' : Emitter}

/-- An emitter in which no scope is open. -/
lemma of_frames_eq_nil (h : e.frames = []) : e.Sound where
  arms := fun f hf => absurd (h ▸ hf) List.not_mem_nil
  outermost := fun f hf => by simp [h] at hf

/-- A part of an arm is only written for a pattern that is left. -/
lemma writes {m m' : MatchScope} {part : ArmPart} {text : String} (h : m.Writes part text m')
    (hm : m.emitted ≤ m.patterns.length ∧ (m.inBlock = true → 1 ≤ m.emitted)) :
    m'.emitted ≤ m'.patterns.length ∧ (m'.inBlock = true → 1 ≤ m'.emitted) := by
  cases h with
  | whole body hbetween hnext | opening hbetween hnext =>
      obtain ⟨hlt, -⟩ := List.getElem?_eq_some_iff.mp hnext
      exact ⟨hlt, fun _ => Nat.le_add_left 1 _⟩
  | ending _ => exact ⟨hm.1, nofun⟩

lemma step {effect : Effect} (h : e.Sound) (hstep : e.Step effect e') : e'.Sound := by
  cases hstep with
  | line text => exact ⟨h.arms, h.outermost⟩
  | @opens scope hfresh hinside =>
      constructor
      · refine List.forall_mem_cons.mpr ⟨?_, h.arms⟩
        rintro m rfl
        obtain ⟨hnone, hbetween⟩ := hfresh
        exact ⟨hnone ▸ Nat.zero_le _, fun hblock => absurd (hbetween.symm.trans hblock) nofun⟩
      · intro f hf
        cases hframes : e.frames with
        | nil =>
            rw [hframes] at hf
            cases hf
            cases scope with
            | function signature => rfl
            | arms m => exact absurd hframes (hinside rfl)
        | cons g gs =>
            rw [hframes, List.getLast?_cons_cons, ← hframes] at hf
            exact h.outermost f hf
  | @closes frame outer last hframes hclosable =>
      constructor
      · intro f hf
        exact h.arms f (hframes ▸ List.mem_cons_of_mem _ hf)
      · intro f hf
        cases outer with
        | nil => cases hf
        | cons g gs =>
            refine h.outermost f ?_
            rwa [hframes, List.getLast?_cons_cons]
  | @arm serial m m' outer part text hframes hwrites =>
      have harms := h.arms
      rw [hframes, List.forall_mem_cons] at harms
      constructor
      · refine List.forall_mem_cons.mpr ⟨?_, harms.2⟩
        rintro _ ⟨⟩
        exact writes hwrites (harms.1 m rfl)
      · intro f hf
        have houtermost := h.outermost
        rw [hframes] at houtermost
        cases outer with
        | nil => cases houtermost _ rfl
        | cons g gs => exact houtermost f hf

end Emitter.Sound

/-- A single step that fails for another reason than its file was refused. -/
lemma Performed.eq_of_error {operation : Operation} {s s' : Session} {failure : Failure}
    (h : Performed operation s (.error failure s')) (hfile : ∀ fault, failure ≠ .file fault) :
    s' = s := by
  cases h with
  | refused => rfl
  | unwritten fault => exact absurd rfl (hfile fault)

/-- **Misuse is harmless.** In every session that was reached from an empty emitter, whatever steps
were refused on the way, a step adds lines at most; a single step that is refused leaves the session
as it was, with its scopes, their arms, the guards and the files; and every open match has at most
its declared arms, an open arm was begun, and the outermost scope is a function. The scopes are
those that a session opens, and it opens them fresh: nothing is said of a match that would come with
arms counted as written. -/
theorem misuse_harmless (files : FileTree) (operations : List Operation) :
    let s := Session.runAll { files := files } operations
    (∀ operation, s.emitter.lines <+: (after (Session.perform operation) s).emitter.lines) ∧
      (∀ operation : Operation, operation.IsSingle → ∀ failure s',
        Session.perform operation s = .error failure s' →
          (∀ fault, failure ≠ .file fault) → s' = s) ∧
      s.emitter.Sound := by
  intro s
  refine ⟨fun operation => ?_, fun operation hsingle failure s' hfail hfile => ?_, ?_⟩
  · exact Session.keeps_emitter (P := fun e => s.emitter.lines <+: e.lines)
      (fun e effect e' hprefix hstep => hprefix.trans hstep.prefix_lines) (List.prefix_refl _)
      [operation]
  · exact Performed.eq_of_error (hfail ▸ performed hsingle s) hfile
  · exact Session.keeps_emitter (fun e effect e' h hstep => h.step hstep)
      (.of_frames_eq_nil rfl) operations

end AbiBridge
