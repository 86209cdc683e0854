import AbiBridge.Journal
import Mathlib.Data.List.Basic

/-!
What is told in a journal.

A journal only grows, and errors are more urgent than every threshold.

* `Journal.GoesOn`: a journal with further notes, among them a number of errors;
* `Journal.Tells`: a text is told between two journals, if messages of its level are kept;
* `Journal.GoesOn.tells`: it is told if it is logged somewhere on the way.
-/

namespace AbiBridge

/-- The journal goes on with further notes, of which so many are errors, and keeps from now on at
least what it kept before. -/
structure Journal.GoesOn (errors : Nat) (j j' : Journal) : Prop where
  kept : j'.threshold.rank ≤ j.threshold.rank
  notes : ∃ notes, j'.notes = j.notes ++ notes ∧ notes.countP (·.level = .error) = errors

namespace Journal

lemma GoesOn.refl (j : Journal) : GoesOn 0 j j :=
  ⟨Nat.le_refl _, [], (List.append_nil _).symm, rfl⟩

lemma GoesOn.trans {n n' : Nat} {j j' j'' : Journal} (h : GoesOn n j j') (h' : GoesOn n' j' j'') :
    GoesOn (n + n') j j'' := by
  obtain ⟨notes, hnotes, hcount⟩ := h.notes
  obtain ⟨notes', hnotes', hcount'⟩ := h'.notes
  refine ⟨Nat.le_trans h'.kept h.kept, notes ++ notes', ?_, ?_⟩
  · rw [hnotes', hnotes, List.append_assoc]
  · rw [List.countP_append, hcount, hcount']

/-- A note that is no error. -/
lemma goesOn_add_of_ne (j : Journal) {note : Note} (h : note.level ≠ .error) :
    GoesOn 0 j (j.add note) := by
  rw [add]
  split
  · exact ⟨Nat.le_refl _, [note], rfl, by simpa using h⟩
  · exact .refl j

lemma goesOn_log (j : Journal) {level : Level} (h : level ≠ .error) (text : String) :
    GoesOn 0 j (j.log level text) :=
  j.goesOn_add_of_ne h

/-- An error is more urgent than every threshold, so it is always kept. -/
lemma goesOn_log_error (j : Journal) (text : String) : GoesOn 1 j (j.log .error text) := by
  have hmost : ∀ level : Level, level.rank ≤ Level.error.rank := by
    intro level
    cases level <;> decide
  have hrank : j.threshold.rank ≤ (Note.ofText .error text).level.rank := hmost _
  rw [log, add, if_pos hrank]
  exact ⟨Nat.le_refl _, [_], rfl, rfl⟩

lemma goesOn_addAll (j : Journal) {notes : List Note} (h : ∀ n ∈ notes, n.level ≠ .error) :
    GoesOn 0 j (j.addAll notes) := by
  induction notes generalizing j with
  | nil => exact .refl j
  | cons note notes ih =>
      obtain ⟨hnote, hnotes⟩ := List.forall_mem_cons.mp h
      exact (j.goesOn_add_of_ne hnote).trans (ih _ hnotes)

/-- On the way from one journal to the other the text is told, if messages of its level are kept. -/
def Tells (j j' : Journal) (level : Level) (text : String) : Prop :=
  j.threshold.rank ≤ level.rank →
    ∃ notes, j'.notes = j.notes ++ notes ∧ Note.ofText level text ∈ notes

lemma exists_notes_addAll (j : Journal) (notes : List Note) :
    ∃ kept, (j.addAll notes).notes = j.notes ++ kept := by
  induction notes generalizing j with
  | nil => exact ⟨[], (List.append_nil _).symm⟩
  | cons note notes ih =>
      obtain ⟨kept, hkept⟩ := ih (j.add note)
      rw [addAll, List.foldl_cons, ← addAll, hkept, add]
      split
      · exact ⟨note :: kept, by rw [List.append_assoc, List.singleton_append]⟩
      · exact ⟨kept, rfl⟩

/-- What is logged on the way is told, whatever is added behind it. -/
lemma GoesOn.tells {n : Nat} {j j₁ : Journal} (h : GoesOn n j j₁) (level : Level) (text : String)
    (notes : List Note) : Tells j ((j₁.log level text).addAll notes) level text := by
  intro hrank
  have hkept : j₁.threshold.rank ≤ (Note.ofText level text).level.rank := Nat.le_trans h.kept hrank
  obtain ⟨before, hbefore, -⟩ := h.notes
  obtain ⟨behind, hbehind⟩ := exists_notes_addAll (j₁.log level text) notes
  refine ⟨before ++ (.ofText level text :: behind), ?_, by simp⟩
  rw [hbehind, log, add, if_pos hkept, hbefore]
  simp only [List.append_assoc, List.singleton_append]

end Journal

end AbiBridge
