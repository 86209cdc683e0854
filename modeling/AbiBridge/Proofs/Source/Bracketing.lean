import AbiBridge.Proofs.Source.Step

/-!
Scopes as brackets.

A scope that was opened and is closed again leaves the scopes around it as they were, and everything
that was written in between lies deeper than its two ends. The levels of the lines depend on the
arms that are open in every scope, so this rests on no step reaching below the innermost scope.

* `Emitter.Ordered`: the numbers of the open scopes rise inwards, so that each is there once;
* `ArmsDone`: the parts of arms that are written for declared patterns;
* `Emitter.Within`: what is done while a scope stays open, with its step and its run;
* `Bracketed`, `scopes_bracketed`: what every scope leaves behind that is closed.
-/

namespace AbiBridge

open Emitter Outcome

/-! ### Levels -/

namespace Emitter

/-- A line behind at least as many blanks as the level has. -/
def IsIndented (level : Nat) (line : String) : Prop :=
  ∃ text, line = String.ofList (List.replicate (4 * level) ' ') ++ text

/-- Lines at a level are behind the blanks of every lower one. -/
lemma isIndented_indented {level level' : Nat} (h : level ≤ level') {text : String}
    (hne : indented level' text ≠ "") : IsIndented level (indented level' text) := by
  have htext : text ≠ "" := fun hempty => hne (if_pos hempty)
  refine ⟨String.ofList (List.replicate (4 * (level' - level)) ' ') ++ text, ?_⟩
  have hlevel : 4 * level' = 4 * level + 4 * (level' - level) := by omega
  rw [indented, if_neg htext, hlevel, List.replicate_add, String.ofList_append,
    String.append_assoc]

lemma levelOf_append (inner outer : List Frame) :
    levelOf outer ≤ levelOf (inner ++ outer) := by
  induction inner with
  | nil => exact Nat.le_refl _
  | cons f inner ih =>
      rw [List.cons_append, levelOf_cons]
      exact Nat.le_trans ih (Nat.le_add_left _ _)

lemma one_le_levels (scope : Scope) : 1 ≤ scope.levels := by
  cases scope with
  | function signature => exact Nat.le_refl 1
  | arms m =>
      rw [Scope.levels]
      split <;> decide

/-- Inside of a scope, the level is higher than outside. -/
lemma lt_levelOf (inner : List Frame) (serial : Nat) (scope : Scope) (outer : List Frame) :
    levelOf outer + 1 ≤ levelOf (inner ++ ⟨serial, scope⟩ :: outer) := by
  have hinner := levelOf_append inner (⟨serial, scope⟩ :: outer)
  have hscope : 1 ≤ (⟨serial, scope⟩ : Frame).scope.levels := one_le_levels scope
  rw [levelOf_cons] at hinner
  omega

/-- The numbers of the open scopes, the innermost first. -/
def serials (e : Emitter) : List Nat := e.frames.map Frame.serial

/-- The numbers of the open scopes rise inwards, and the next number is higher. -/
structure Ordered (e : Emitter) : Prop where
  falling : e.serials.Pairwise (· > ·)
  below : ∀ n ∈ e.serials, n < e.opened

lemma Ordered.of_frames_eq_nil {e : Emitter} (h : e.frames = []) : e.Ordered := by
  constructor
  · rw [serials, h]
    exact List.Pairwise.nil
  · rw [serials, h]
    exact fun n hn => absurd hn List.not_mem_nil

/-- A step opens a scope with the next number, or it closes the innermost one, or the same scopes
are open as before. -/
lemma Step.serials_cases {e e' : Emitter} {effect : Effect} (h : e.Step effect e') :
    (e'.serials = e.opened :: e.serials ∧ e'.opened = e.opened + 1) ∨
      (e'.serials = e.serials.tail ∧ e'.opened = e.opened) ∨
        e'.serials = e.serials ∧ e'.opened = e.opened := by
  cases h with
  | line => exact Or.inr (Or.inr ⟨rfl, rfl⟩)
  | opens => exact Or.inl ⟨rfl, rfl⟩
  | closes hframes =>
      refine Or.inr (Or.inl ⟨?_, rfl⟩)
      rw [serials, serials, hframes]
      rfl
  | arm hframes =>
      refine Or.inr (Or.inr ⟨?_, rfl⟩)
      rw [serials, serials, hframes]
      rfl

lemma Ordered.step {e e' : Emitter} {effect : Effect} (h : e.Ordered) (hstep : e.Step effect e') :
    e'.Ordered := by
  rcases hstep.serials_cases with ⟨hserials, hopened⟩ | ⟨hserials, hopened⟩ | ⟨hserials, hopened⟩
  · refine ⟨?_, ?_⟩
    · rw [hserials]
      exact List.pairwise_cons.mpr ⟨h.below, h.falling⟩
    · rw [hserials, hopened]
      refine List.forall_mem_cons.mpr ⟨Nat.lt_succ_self _, fun n hn => ?_⟩
      exact Nat.lt_succ_of_lt (h.below n hn)
  · refine ⟨?_, ?_⟩
    · rw [hserials]
      exact h.falling.tail
    · rw [hserials, hopened]
      exact fun n hn => h.below n (List.mem_of_mem_tail hn)
  · refine ⟨hserials ▸ h.falling, ?_⟩
    rw [hserials, hopened]
    exact h.below

/-- A number that was given once and is not open any more is never open again. -/
lemma Step.notMem_serials {e e' : Emitter} {effect : Effect} (hstep : e.Step effect e') {n : Nat}
    (h : n ∉ e.serials ∧ n < e.opened) : n ∉ e'.serials ∧ n < e'.opened := by
  rcases hstep.serials_cases with ⟨hserials, hopened⟩ | ⟨hserials, hopened⟩ | ⟨hserials, hopened⟩
  · rw [hserials, hopened, List.mem_cons, not_or]
    exact ⟨⟨Nat.ne_of_lt h.2, h.1⟩, Nat.lt_succ_of_lt h.2⟩
  · rw [hserials, hopened]
    exact ⟨fun hn => h.1 (List.mem_of_mem_tail hn), h.2⟩
  · rwa [hserials, hopened]

end Emitter

/-! ### Arms -/

/-- The parts of arms with the lines that were written for them: for each pattern in order, an arm
in one line, or a line that opens a block and later one that closes it. -/
inductive ArmsDone (level : Nat) : List String → List (ArmPart × List String) → Prop where
  | nil : ArmsDone level [] []
  | whole {patterns : List String} {parts : List (ArmPart × List String)} (pattern body : String)
      (rest : ArmsDone level patterns parts) : ArmsDone level (pattern :: patterns)
        ((.whole body, [indented level (pattern ++ " => " ++ body ++ ",")]) :: parts)
  | block {patterns : List String} {parts : List (ArmPart × List String)} (pattern : String)
      (rest : ArmsDone level patterns parts) : ArmsDone level (pattern :: patterns)
        ((.opening, [indented level (pattern ++ " => \x7b")]) ::
          (.ending, [indented level "\x7d"]) :: parts)

/-- A scope that becomes another one as parts of its arms are written. -/
inductive Scope.WritesAll (level : Nat) : Scope → List (ArmPart × List String) → Scope → Prop where
  | none (scope : Scope) : WritesAll level scope [] scope
  | next {m m' : MatchScope} {part : ArmPart} {text : String} {scope : Scope}
      {parts : List (ArmPart × List String)} (writes : m.Writes part text m')
      (rest : WritesAll level (.arms m') parts scope) :
      WritesAll level (.arms m) ((part, [indented level text]) :: parts) scope

namespace MatchScope.Writes

variable {m m' : MatchScope} {part : ArmPart} {text : String}

lemma trailer_eq (h : m.Writes part text m') : m'.trailer = m.trailer := by cases h <;> rfl

end MatchScope.Writes

namespace Scope.WritesAll

variable {level : Nat} {scope scope' : Scope} {parts : List (ArmPart × List String)}

lemma append {scope'' : Scope} {parts' : List (ArmPart × List String)}
    (h : WritesAll level scope parts scope') (h' : WritesAll level scope' parts' scope'') :
    WritesAll level scope (parts ++ parts') scope'' := by
  induction h with
  | none => exact h'
  | next hwrites _ ih => exact .next hwrites (ih h')

/-- The end of a scope does not depend on its arms. -/
lemma ending_eq (h : WritesAll level scope parts scope') :
    scope'.trailer = scope.trailer ∧ scope'.kind = scope.kind := by
  induction h with
  | none => exact ⟨rfl, rfl⟩
  | next hwrites _ ih => exact ⟨ih.1.trans hwrites.trailer_eq, ih.2⟩

/-- A match that may be closed has all its arms, and those written from some state on are those of
the patterns that were left there. Where an arm was open in that state, it is closed first. -/
lemma armsDone {m m' : MatchScope} (h : WritesAll level (.arms m) parts (.arms m'))
    (hclosed : m'.inBlock = false) (hall : m'.emitted = m'.patterns.length) :
    (m.inBlock = false → ArmsDone level (m.patterns.drop m.emitted) parts) ∧
      (m.inBlock = true → ∃ later, parts = (.ending, [indented level "\x7d"]) :: later ∧
        ArmsDone level (m.patterns.drop m.emitted) later) := by
  generalize hscope : Scope.arms m = scope at h
  generalize hscope' : Scope.arms m' = scope' at h
  induction h generalizing m with
  | none scope =>
      cases hscope.trans hscope'.symm
      rw [hall, List.drop_length]
      exact ⟨fun _ => .nil, fun hblock => absurd (hclosed.symm.trans hblock) nofun⟩
  | next hwrites _ ih =>
      cases hscope
      have hlater := ih rfl hscope'
      cases hwrites with
      | whole body hbetween hnext =>
          refine ⟨fun _ => ?_, fun hblock => absurd (hbetween.symm.trans hblock) nofun⟩
          obtain ⟨hlt, rfl⟩ := List.getElem?_eq_some_iff.mp hnext
          rw [List.drop_eq_getElem_cons hlt]
          exact .whole _ body (hlater.1 hbetween)
      | opening hbetween hnext =>
          refine ⟨fun _ => ?_, fun hblock => absurd (hbetween.symm.trans hblock) nofun⟩
          obtain ⟨hlt, rfl⟩ := List.getElem?_eq_some_iff.mp hnext
          obtain ⟨later, rfl, hdone⟩ := hlater.2 rfl
          rw [List.drop_eq_getElem_cons hlt]
          exact .block _ hdone
      | ending hinside =>
          exact ⟨fun hblock => absurd (hinside.symm.trans hblock) nofun,
            fun _ => ⟨_, rfl, hlater.1 rfl⟩⟩

end Scope.WritesAll

/-! ### Inside of a scope -/

/-- From one emitter to a later one a scope stays open above the same other ones. What is written
lies one level deeper than these, and the parts of arms make the scope what it becomes. -/
structure Emitter.Within (serial : Nat) (outer : List Frame) (e : Emitter) (scope : Scope)
    (parts : List (ArmPart × List String)) (e' : Emitter) (scope' : Scope) : Prop where
  frames : ∃ inner, e'.frames = inner ++ ⟨serial, scope'⟩ :: outer
  lines : ∃ lines, e'.lines = e.lines ++ lines ∧
    ∀ line ∈ lines, line ≠ "" → IsIndented (levelOf outer + 1) line
  arms : Scope.WritesAll (levelOf outer + 1) scope parts scope'

namespace Emitter

variable {serial : Nat} {outer inner : List Frame} {e e' e'' : Emitter}
  {scope scope' scope'' : Scope} {parts parts' : List (ArmPart × List String)}

namespace Within

/-- Nothing happens. -/
lemma refl (hframes : e.frames = inner ++ ⟨serial, scope⟩ :: outer) :
    Within serial outer e scope [] e scope where
  frames := ⟨inner, hframes⟩
  lines := ⟨[], (List.append_nil _).symm, fun _ h => absurd h List.not_mem_nil⟩
  arms := .none scope

lemma trans (h : Within serial outer e scope parts e' scope')
    (h' : Within serial outer e' scope' parts' e'' scope'') :
    Within serial outer e scope (parts ++ parts') e'' scope'' where
  frames := h'.frames
  lines := by
    obtain ⟨lines, heq, hdeep⟩ := h.lines
    obtain ⟨lines', heq', hdeep'⟩ := h'.lines
    refine ⟨lines ++ lines', ?_, ?_⟩
    · rw [heq', heq, List.append_assoc]
    · exact List.forall_mem_append.mpr ⟨hdeep, hdeep'⟩
  arms := h.arms.append h'.arms

end Within

/-- The number of a scope is the one of the innermost scope if there is no other one in it. -/
lemma Ordered.head?_eq_iff (h : e.Ordered)
    (hframes : e.frames = inner ++ ⟨serial, scope⟩ :: outer) :
    e.frames.head?.map Frame.serial = some serial ↔ inner = [] := by
  have hfalling := h.falling
  rw [serials, hframes] at hfalling
  rw [hframes]
  cases inner with
  | nil => exact iff_of_true rfl rfl
  | cons f inner =>
      refine iff_of_false (fun heq => ?_) (List.cons_ne_nil _ _)
      have hserial : f.serial = serial := Option.some.inj heq
      rw [List.cons_append, List.map_cons, List.pairwise_cons] at hfalling
      exact Nat.lt_irrefl f.serial (hserial ▸ hfalling.1 serial (by simp))

/-- A scope that is closed was the innermost one. -/
lemma Step.closes_of_notMem {effect : Effect} (hstep : e.Step effect e')
    (hframes : e.frames = inner ++ ⟨serial, scope⟩ :: outer) (hclosed : serial ∉ e'.serials) :
    e.Step .closes e' ∧ inner = [] := by
  have hopen : serial ∈ e.serials := by
    rw [serials, hframes]
    simp
  cases hstep with
  | line text => exact absurd hopen hclosed
  | opens => exact absurd (List.mem_cons_of_mem _ hopen) hclosed
  | @closes frame outer' last hframes' hclosable =>
      refine ⟨.closes hframes' hclosable, ?_⟩
      cases inner with
      | nil => rfl
      | cons f inner =>
          rw [hframes, List.cons_append, List.cons.injEq] at hframes'
          refine absurd ?_ hclosed
          rw [serials, ← hframes'.2]
          simp
  | arm hframes' =>
      rw [serials, hframes'] at hopen
      exact absurd hopen hclosed

/-- What a step does while a scope stays open: it adds lines inside of it, and it changes the scope
itself only by a part of one of its arms. -/
lemma Step.within {effect : Effect} (hstep : e.Step effect e')
    (hframes : e.frames = inner ++ ⟨serial, scope⟩ :: outer) (hopen : serial ∈ e'.serials)
    (hordered : e.Ordered) :
    (∃ scope' part line, effect = .arm part ∧ inner = [] ∧ e'.lines = e.lines ++ [line] ∧
      Within serial outer e scope [(part, [line])] e' scope') ∨
    (Within serial outer e scope [] e' scope ∧ ∀ part, effect = .arm part → inner ≠ []) := by
  have hdeeper : ∀ inner' : List Frame,
      levelOf outer + 1 ≤ levelOf (inner' ++ ⟨serial, scope⟩ :: outer) :=
    fun inner' => lt_levelOf inner' serial scope outer
  cases hstep with
  | line text =>
      refine Or.inr ⟨⟨⟨inner, hframes⟩, ⟨_, by rw [write_eq], ?_⟩, .none scope⟩, nofun⟩
      rw [depth_eq, hframes]
      exact List.forall_mem_singleton.mpr fun hne => isIndented_indented (hdeeper inner) hne
  | @opens opened hfresh hinside =>
      refine Or.inr ⟨⟨⟨⟨e.opened, opened⟩ :: inner, ?_⟩, ⟨_, rfl, ?_⟩, .none scope⟩, nofun⟩
      · dsimp only
        rw [hframes, List.cons_append]
      · rw [depth_eq, hframes]
        exact List.forall_mem_map.mpr fun line _ hne => isIndented_indented (hdeeper inner) hne
  | @closes frame outer' last hframes' hclosable =>
      cases inner with
      | nil =>
          -- the numbers of the scopes outside are lower
          have hbelow := hordered.falling
          rw [serials, hframes, List.nil_append, List.map_cons, List.pairwise_cons] at hbelow
          rw [hframes, List.nil_append, List.cons.injEq] at hframes'
          rw [serials, ← hframes'.2] at hopen
          exact absurd (hbelow.1 serial hopen) (Nat.lt_irrefl serial)
      | cons f inner =>
          rw [hframes, List.cons_append, List.cons.injEq] at hframes'
          obtain ⟨rfl, rfl⟩ := hframes'
          refine Or.inr ⟨⟨⟨inner, rfl⟩, ⟨_, rfl, ?_⟩, .none scope⟩, nofun⟩
          rw [depth_eq, hframes]
          refine List.forall_mem_append.mpr ⟨?_, List.forall_mem_cons.mpr ⟨fun hne => ?_, ?_⟩⟩
          · exact List.forall_mem_map.mpr fun line _ hne =>
              isIndented_indented (hdeeper (f :: inner)) hne
          · exact isIndented_indented (hdeeper inner) hne
          · rw [if_neg (fun h => by simp at h)]
            exact fun _ h => absurd h List.not_mem_nil
  | @arm serial' m m' outer' part text hframes' hwrites =>
      cases inner with
      | nil =>
          rw [hframes, List.nil_append, List.cons.injEq] at hframes'
          obtain ⟨hframe, rfl⟩ := hframes'
          cases hframe
          refine Or.inl ⟨.arms m', part, _, rfl, rfl, rfl, ⟨[], rfl⟩, ⟨_, rfl, ?_⟩, ?_⟩
          · exact List.forall_mem_singleton.mpr fun hne => isIndented_indented (Nat.le_refl _) hne
          · exact .next hwrites (.none _)
      | cons f inner =>
          rw [hframes, List.cons_append, List.cons.injEq] at hframes'
          obtain ⟨rfl, rfl⟩ := hframes'
          refine Or.inr ⟨⟨⟨⟨serial', .arms m'⟩ :: inner, rfl⟩, ⟨_, rfl, ?_⟩, .none scope⟩,
            fun _ _ => List.cons_ne_nil _ _⟩
          exact List.forall_mem_singleton.mpr fun hne =>
            isIndented_indented (Nat.le_succ_of_le (hdeeper inner)) hne

/-- Opening a scope writes its header. -/
lemma Step.of_opens (hstep : e.Step (.opens scope) e') : scope.IsFresh ∧
    e'.lines = e.lines ++ scope.header.map (indented e.depth) ∧
      e'.frames = ⟨e.opened, scope⟩ :: e.frames := by
  cases hstep with
  | opens hfresh => exact ⟨hfresh, rfl, rfl⟩

/-- Closing a scope that may be closed writes its end. -/
lemma Step.of_closes (hstep : e.Step .closes e') (hframes : e.frames = ⟨serial, scope⟩ :: outer) :
    ∃ last, Emission.closing scope = .ok last ∧ e'.lines = e.lines ++
      (last.map (indented e.depth) ++ indented (levelOf outer) scope.trailer ::
        if outer = [] ∧ scope.kind = .function then [""] else []) ∧ e'.frames = outer := by
  cases hstep with
  | @closes frame outer' last hframes' hclosable =>
      rw [hframes, List.cons.injEq] at hframes'
      obtain ⟨rfl, rfl⟩ := hframes'
      exact ⟨last, hclosable, rfl, rfl⟩

/-- How many scopes were opened only grows. -/
lemma Step.opened_le {effect : Effect} (hstep : e.Step effect e') : e.opened ≤ e'.opened := by
  rcases hstep.serials_cases with ⟨-, hopened⟩ | ⟨-, hopened⟩ | ⟨-, hopened⟩
  · rw [hopened]
    exact Nat.le_succ _
  · exact Nat.le_of_eq hopened.symm
  · exact Nat.le_of_eq hopened.symm

end Emitter

/-! ### Arms of one scope in a run -/

/-- The part of an arm that a step writes, if it writes one. -/
def Operation.armPart? (operation : Operation) : Option ArmPart :=
  match operation.effect? with
  | some (.arm part) => some part
  | _ => none

namespace Session

/-- The part of an arm that a step writes in a scope, with the lines that it adds. -/
def armWritten? (serial : Nat) (s : Session) (operation : Operation) :
    Option (ArmPart × List String) :=
  match operation.armPart?, perform operation s with
  | some part, .ok _ s' =>
      if s.emitter.frames.head?.map Frame.serial = some serial then
        some (part, s'.emitter.lines.drop s.emitter.lines.length)
      else none
  | _, _ => none

/-- The parts of arms that a run writes in a scope, with the lines that they add. -/
def armsWritten (serial : Nat) : Session → List Operation → List (ArmPart × List String)
  | _, [] => []
  | s, operation :: operations =>
      (s.armWritten? serial operation).toList ++
        armsWritten serial (after (perform operation) s) operations

section Within

variable {serial : Nat} {scope : Scope} {outer inner : List Frame} {s : Session}

/-- A step that has no effect of its own writes no part of an arm. -/
lemma armWritten?_of_effect?_eq_none {operation : Operation} (h : operation.effect? = none) :
    s.armWritten? serial operation = none := by
  rw [armWritten?, Operation.armPart?, h]

lemma armWritten?_of_error {operation : Operation} {failure : Failure} {s' : Session}
    (h : perform operation s = .error failure s') : s.armWritten? serial operation = none := by
  rw [armWritten?, h]
  cases operation.armPart? <;> rfl

/-- A step that succeeds writes the part that it is for, if the scope is the innermost one. -/
lemma armWritten?_of_ok {operation : Operation} {effect : Effect} {reply : Reply} {s' : Session}
    (hdoes : operation.effect? = some effect) (h : perform operation s = .ok reply s')
    (hordered : s.emitter.Ordered)
    (hframes : s.emitter.frames = inner ++ ⟨serial, scope⟩ :: outer) :
    (∀ part, effect = .arm part → inner = [] → s.armWritten? serial operation =
      some (part, s'.emitter.lines.drop s.emitter.lines.length)) ∧
    ((∀ part, effect = .arm part → inner ≠ []) → s.armWritten? serial operation = none) := by
  have hhead := hordered.head?_eq_iff hframes
  rw [armWritten?, Operation.armPart?, hdoes, h]
  cases effect with
  | line | opens | closes => exact ⟨nofun, fun _ => rfl⟩
  | arm part =>
      refine ⟨fun part' hpart hinner => ?_, fun hinner => ?_⟩
      · cases hpart
        exact if_pos (hhead.mpr hinner)
      · exact if_neg fun heq => hinner part rfl (hhead.mp heq)

/-- A single step after which a scope is still open wrote inside of it. -/
lemma within_perform {operation : Operation} (hsingle : operation.IsSingle)
    (hordered : s.emitter.Ordered) (hframes : s.emitter.frames = inner ++ ⟨serial, scope⟩ :: outer)
    (hopen : serial ∈ (after (perform operation) s).emitter.serials) :
    ∃ scope', Within serial outer s.emitter scope (s.armWritten? serial operation).toList
      (after (perform operation) s).emitter scope' := by
  have hperformed := performed hsingle s
  generalize hrun : perform operation s = result at hperformed
  have heffect : ∀ {effect : Effect} {reply : Reply} {s' : Session},
      operation.effect? = some effect → perform operation s = .ok reply s' →
      s.emitter.Step effect s'.emitter → ∃ scope', Within serial outer s.emitter scope
        (s.armWritten? serial operation).toList s'.emitter scope' := by
    intro effect reply s' hdoes hok hstep
    rw [after_of_ok hok] at hopen
    have hwritten := armWritten?_of_ok hdoes hok hordered hframes
    rcases hstep.within hframes hopen hordered with
      ⟨scope', part, line, hpart, hinner, hlines, hwithin⟩ | ⟨hwithin, hother⟩
    · rw [hwritten.1 part hpart hinner, hlines, List.drop_left]
      exact ⟨scope', hwithin⟩
    · rw [hwritten.2 hother]
      exact ⟨scope, hwithin⟩
  cases hperformed with
  | refused | unwritten =>
      rw [armWritten?_of_error hrun, after_of_error hrun]
      exact ⟨scope, .refl hframes⟩
  | rested hnone =>
      rw [armWritten?_of_effect?_eq_none hnone, after_of_ok hrun]
      exact ⟨scope, .refl hframes⟩
  | done hdoes hstep | guarded hdoes hstep =>
      rw [after_of_ok hrun]
      exact heffect hdoes hrun hstep
  | closed hnone _ _ _ hstep =>
      rw [after_of_ok hrun] at hopen ⊢
      rw [armWritten?_of_effect?_eq_none hnone]
      rcases hstep.within hframes hopen hordered with ⟨_, _, _, hpart, -⟩ | ⟨hwithin, -⟩
      · cases hpart
      · exact ⟨scope, hwithin⟩

/-- A run after which a scope is still open wrote inside of it. -/
lemma within_runAll {operations : List Operation} (hsingle : ∀ o ∈ operations, o.IsSingle)
    (hordered : s.emitter.Ordered) (hframes : s.emitter.frames = inner ++ ⟨serial, scope⟩ :: outer)
    (hopen : serial ∈ (s.runAll operations).emitter.serials) :
    ∃ scope', Within serial outer s.emitter scope (s.armsWritten serial operations)
      (s.runAll operations).emitter scope' := by
  -- along the run, where the scope is still open after each step because it is at the end
  induction operations generalizing s scope inner with
  | nil => exact ⟨scope, .refl hframes⟩
  | cons operation operations ih =>
      obtain ⟨hfirst, hrest⟩ := List.forall_mem_cons.mp hsingle
      have hordered' : (after (perform operation) s).emitter.Ordered :=
        keeps_emitter (fun e effect e' h hstep => h.step hstep) hordered [operation]
      have hlt : serial < (after (perform operation) s).emitter.opened := by
        refine keeps_emitter (P := fun e => serial < e.opened)
          (fun e effect e' h hstep => Nat.lt_of_lt_of_le h hstep.opened_le) ?_ [operation]
        refine hordered.below serial ?_
        rw [serials, hframes]
        simp
      have hnext : serial ∈ (after (perform operation) s).emitter.serials := by
        by_contra hclosed
        exact (keeps_emitter (fun e effect e' h hstep => hstep.notMem_serials h) ⟨hclosed, hlt⟩
          operations).1 hopen
      obtain ⟨scope', hwithin⟩ := within_perform hfirst hordered hframes hnext
      obtain ⟨inner', hframes'⟩ := hwithin.frames
      obtain ⟨scope'', hwithin'⟩ := ih hrest hordered' hframes' hopen
      exact ⟨scope'', hwithin.trans hwithin'⟩

end Within

/-! ### Guards -/

/-- A guard is for the same scope after every run. -/
lemma guard_serial_runAll {index serial : Nat} {s : Session}
    (h : (s.guards[index]?).map Guard.serial = some serial) (operations : List Operation) :
    ((s.runAll operations).guards[index]?).map Guard.serial = some serial := by
  refine keeps_runAll (P := fun s => (s.guards[index]?).map Guard.serial = some serial)
    (fun s operation hsingle hs => ?_) h operations
  have hperformed := performed hsingle s
  rw [after]
  generalize perform operation s = result at hperformed
  cases hperformed with
  | refused | unwritten | rested | done => exact hs
  | guarded =>
      obtain ⟨guard, hfound, hserial⟩ := Option.map_eq_some_iff.mp hs
      obtain ⟨hlt, rfl⟩ := List.getElem?_eq_some_iff.mp hfound
      dsimp only
      rw [List.getElem?_append_left hlt, hfound, ← hserial]
      rfl
  | @closed index' guard e' _ hfound =>
      obtain ⟨hlt, rfl⟩ := List.getElem?_eq_some_iff.mp hfound
      dsimp only
      rw [List.getElem?_set]
      split
      · next heq =>
          subst heq
          rw [← hs, hfound]
          rfl
      · exact hs

/-- A step closes a scope. -/
def Closes (s : Session) (serial : Nat) (s' : Session) : Prop :=
  serial ∈ s.emitter.serials ∧ serial ∉ s'.emitter.serials

/-- Closing through a guard closes the scope that the guard is for. -/
lemma closes_of_close {index serial : Nat} {s s' : Session} {reply : Reply}
    (hordered : s.emitter.Ordered) (hguard : (s.guards[index]?).map Guard.serial = some serial)
    (hrun : perform (.close index) s = .ok reply s') : s.Closes serial s' := by
  rcases perform_close_cases index s with
    ⟨guard, e', hfound, -, hinner, hstep, hok⟩ | ⟨failure, hfail⟩
  · rw [hok] at hrun
    cases hrun
    rw [hfound] at hguard
    cases hguard
    cases hstep with
    | @closes frame outer last hframes =>
        rw [hframes] at hinner
        have hserial : frame.serial = guard.serial := Option.some.inj hinner
        have hfalling := hordered.falling
        rw [serials, hframes, List.map_cons, List.pairwise_cons] at hfalling
        rw [← hserial]
        refine ⟨?_, fun hmem => Nat.lt_irrefl _ (hfalling.1 _ hmem)⟩
        rw [serials, hframes]
        exact List.mem_cons_self
  · rw [hfail] at hrun
    cases hrun

end Session

/-! ### The brackets -/

/-- A step with an effect is a single one. -/
lemma Operation.isSingle_of_effect? {operation : Operation} {effect : Effect}
    (h : operation.effect? = some effect) : operation.IsSingle := by
  cases operation with
  | emit statement =>
      cases statement with
      | armBlock body => cases h
      | _ => trivial
  | marshal descriptor => cases h
  | destructor owner exportName => cases h
  | _ => trivial

/-- What opening a scope leads to: its header is written and it is the innermost one, and a guard
that is given is for it. -/
lemma Session.opens_perform {push : Operation} {scope : Scope} {s s' : Session} {reply : Reply}
    (hpush : push.effect? = some (.opens scope)) (hrun : perform push s = .ok reply s') :
    s.emitter.Step (.opens scope) s'.emitter ∧
      ∀ index, reply = .guard index → (s'.guards[index]?).map Guard.serial =
        some s.emitter.opened := by
  have hperformed := performed (Operation.isSingle_of_effect? hpush) s
  rw [hrun] at hperformed
  cases hperformed with
  | rested hnone => exact absurd (hpush.symm.trans hnone) nofun
  | done hdoes hstep =>
      cases hpush.symm.trans hdoes
      exact ⟨hstep, nofun⟩
  | guarded hdoes hstep =>
      cases hpush.symm.trans hdoes
      refine ⟨hstep, fun index hindex => ?_⟩
      cases hindex
      dsimp only
      rw [List.getElem?_append_right (Nat.le_refl _), Nat.sub_self]
      rfl
  | closed hnone => exact absurd (hpush.symm.trans hnone) nofun

/-- What a scope leaves behind that was opened in one session and closed in a later one, with a run
in between. -/
structure Bracketed (scope : Scope) (start opened : Session) (between : List Operation)
    (closed : Session) : Prop where
  /-- The scopes around it are as they were, with their arms. -/
  frames : closed.emitter.frames = start.emitter.frames
  /-- Its header is at the level that it was opened at. -/
  header : opened.emitter.lines =
    start.emitter.lines ++ scope.header.map (indented start.emitter.depth)
  /-- Its end is at the same level, and what is in between is one level deeper. -/
  body : ∃ inner, closed.emitter.lines = opened.emitter.lines ++
      (inner ++ indented start.emitter.depth scope.trailer ::
        if start.emitter.frames = [] ∧ scope.kind = .function then [""] else []) ∧
    ∀ line ∈ inner, line ≠ "" → IsIndented (start.emitter.depth + 1) line
  /-- If it is a match, its arms are those that are written in it, step by step. -/
  arms : ∀ m, scope = .arms m → ∃ steps, opened.Expands between steps ∧
    ArmsDone (start.emitter.depth + 1) m.patterns (opened.armsWritten start.emitter.opened steps)

/-- A match may be closed between two arms, when all of them were written. -/
lemma of_closing_arms {m : MatchScope} {last : List String}
    (h : Emission.closing (.arms m) = .ok last) :
    m.inBlock = false ∧ m.emitted = m.patterns.length := by
  rw [Emission.closing, ite_throw_eq_ok] at h
  obtain ⟨hblock, h⟩ := h
  rw [ite_throw_eq_ok] at h
  exact ⟨eq_false_of_ne_true hblock, by simpa using h.1⟩

/-- A step that closes a scope in which a run wrote is the other end of a bracket. -/
lemma bracketed_of_within {scope scope' : Scope} {start opened closed : Session} {e : Emitter}
    {between steps : List Operation} (hexpands : opened.Expands between steps)
    (hopens : start.emitter.Step (.opens scope) opened.emitter)
    (hwithin : Within start.emitter.opened start.emitter.frames opened.emitter scope
      (opened.armsWritten start.emitter.opened steps) e scope')
    (hcloses : e.Step .closes closed.emitter)
    (hframes : e.frames = ⟨start.emitter.opened, scope'⟩ :: start.emitter.frames) :
    Bracketed scope start opened between closed := by
  obtain ⟨lines, hlines, hdeep⟩ := hwithin.lines
  obtain ⟨htrailer, hkind⟩ := hwithin.arms.ending_eq
  obtain ⟨last, hclosable, hclosed, hrest⟩ := hcloses.of_closes hframes
  obtain ⟨hfresh, hheader, -⟩ := hopens.of_opens
  refine ⟨hrest, hheader, ⟨lines ++ last.map (indented e.depth), ?_, ?_⟩, ?_⟩
  · rw [hclosed, hlines, htrailer, hkind, depth_eq start.emitter]
    simp only [List.append_assoc]
  · refine List.forall_mem_append.mpr ⟨hdeep, List.forall_mem_map.mpr fun line _ hne => ?_⟩
    refine isIndented_indented ?_ hne
    rw [depth_eq e, hframes]
    exact lt_levelOf [] _ _ _
  · rintro m rfl
    cases scope' with
    | function signature => cases hkind
    | arms m' =>
        obtain ⟨hblock, hall⟩ := of_closing_arms hclosable
        have hdone := (hwithin.arms.armsDone hblock hall).1 hfresh.2
        rw [hfresh.1] at hdone
        exact ⟨steps, hexpands, hdone⟩

/-- **Scopes are brackets.** A scope is opened after any run, and any run follows, and each step of
the two may fail. If the next step closes the scope, by itself or through a guard, then the scopes
around it are as before; header and end are at the level at which it was opened and what is in
between lies deeper; and a match has all its arms, each once, in order and with its block closed.
The guard that was given for the scope closes it or nothing. -/
theorem scopes_bracketed (files : FileTree) (before : List Operation) {push : Operation}
    {scope : Scope} (hpush : push.effect? = some (.opens scope)) {reply : Reply} {opened : Session}
    (hopened : Session.perform push (Session.runAll { files := files } before) =
      .ok reply opened) (between : List Operation) :
    let start := Session.runAll { files := files } before
    let finish := opened.runAll between
    (∀ pop : Operation, pop.IsSingle → ∀ reply' closed,
      Session.perform pop finish = .ok reply' closed →
        finish.Closes start.emitter.opened closed →
          Bracketed scope start opened between closed) ∧
    ∀ index, reply = .guard index → ∀ reply' closed,
      (Session.perform (.close index) finish = .ok reply' closed →
        finish.Closes start.emitter.opened closed) ∧
      ∀ failed, Session.perform (.leave index failed) finish = .ok reply' closed →
        closed = finish ∨ finish.Closes start.emitter.opened closed := by
  intro start finish
  obtain ⟨hopens, hguard⟩ := Session.opens_perform hpush hopened
  have hstep : ∀ (e : Emitter) (effect : Effect) (e' : Emitter), e.Ordered →
      e.Step effect e' → e'.Ordered := fun e effect e' h hstep => h.step hstep
  have hordered : opened.emitter.Ordered :=
    (Session.keeps_emitter hstep (.of_frames_eq_nil rfl) before).step hopens
  have hordered' : finish.emitter.Ordered := Session.keeps_emitter hstep hordered between
  refine ⟨fun pop hpop reply' closed hrun hcloses => ?_, fun index hindex reply' closed => ?_⟩
  · have hframes : opened.emitter.frames =
        [] ++ ⟨start.emitter.opened, scope⟩ :: start.emitter.frames := hopens.of_opens.2.2
    obtain ⟨steps, hexpands⟩ := opened.exists_expands between
    have hopen : start.emitter.opened ∈ (opened.runAll steps).emitter.serials := by
      rw [hexpands.runAll_eq]
      exact hcloses.1
    obtain ⟨scope', hwithin⟩ := Session.within_runAll hexpands.isSingle hordered hframes hopen
    rw [hexpands.runAll_eq] at hwithin
    obtain ⟨inner, hframes'⟩ := hwithin.frames
    have hperformed := performed hpop finish
    rcases hperformed.emitter_cases with hsame | ⟨effect, hdone⟩
    · rw [after_of_ok hrun] at hsame
      exact absurd (hsame ▸ hcloses.1) hcloses.2
    · rw [after_of_ok hrun] at hdone
      obtain ⟨hdone, rfl⟩ := hdone.closes_of_notMem hframes' hcloses.2
      exact bracketed_of_within hexpands hopens hwithin hdone hframes'
  · have hserial := Session.guard_serial_runAll (hguard index hindex) between
    refine ⟨fun hrun => Session.closes_of_close hordered' hserial hrun, fun failed hrun => ?_⟩
    rcases Session.perform_leave_eq index failed finish with hclose | hrest
    · exact Or.inr (Session.closes_of_close hordered' hserial (hclose ▸ hrun))
    · rw [hrest] at hrun
      cases hrun
      exact Or.inl rfl

/-- A match in a function. Closing it early and an arm too many are refused on the way, and it is
closed by its guard. -/
theorem scopes_bracketed_match :
    let start := Session.runAll {} [.openFunction { name := "f" }]
    let between : List Operation :=
      [.arm "1", .closeScope, .beginArm, .arm "2", .line "g();", .close 0, .endArm, .arm "3"]
    ∃ opened closed,
      Session.perform (.openMatch "x" ["0", "_"] none) start = .ok (.guard 1) opened ∧
      Session.perform (.close 1) (opened.runAll between) = .ok .nothing closed ∧
      Bracketed (.arms ⟨"x", ["0", "_"], none, 0, false⟩) start opened between closed := by
  intro start between
  have hpush : (Operation.openMatch "x" ["0", "_"] none).effect? =
    some (.opens (.arms ⟨"x", ["0", "_"], none, 0, false⟩)) := rfl
  refine ⟨_, _, rfl, rfl, ?_⟩
  have hbracketed := scopes_bracketed {} [.openFunction { name := "f" }] hpush rfl between
  exact hbracketed.1 (.close 1) trivial _ _ rfl ((hbracketed.2 1 rfl _ _).1 rfl)

end AbiBridge
