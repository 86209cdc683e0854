import AbiBridge.Proofs.Source.Block
import AbiBridge.Source.Session

/-!
Steps of a session.

A step of a session does at most one thing to the emitter, and if it fails it does nothing. A step
that writes a whole block or a whole wrapper comes to several of these.

* `Emitter.Step`: everything that can happen to an emitter;
* `Emission.Does`: an operation does a given thing, or fails and leaves the emitter as it was;
* `Performed`: how a single step of a session ends;
* `exists_singles`, `Session.Expands`: every step leaves off where a run of single ones does, and so
  does every run;
* `Session.keeps_runAll`, `Session.keeps_emitter`: what no step spoils holds after every run.
-/

namespace AbiBridge

open Emitter Outcome

/-! ### What happens to an emitter -/

/-- A part of an arm: all of it, or the line that opens or closes its block. -/
inductive ArmPart where
  | whole (body : String)
  | opening
  | ending
  deriving DecidableEq, Repr

/-- What an operation does to an emitter. -/
inductive Effect where
  | line (text : String)
  | opens (scope : Scope)
  | closes
  | arm (part : ArmPart)

/-- The part of an arm that is written in a match as the given line, and the match behind it. -/
inductive MatchScope.Writes (m : MatchScope) : ArmPart → String → MatchScope → Prop where
  | whole {pattern : String} (body : String) (between : m.inBlock = false)
      (next : m.patterns[m.emitted]? = some pattern) :
      m.Writes (.whole body) (pattern ++ " => " ++ body ++ ",")
        { m with emitted := m.emitted + 1 }
  | opening {pattern : String} (between : m.inBlock = false)
      (next : m.patterns[m.emitted]? = some pattern) :
      m.Writes .opening (pattern ++ " => \x7b")
        { m with emitted := m.emitted + 1, inBlock := true }
  | ending (inside : m.inBlock = true) : m.Writes .ending "\x7d" { m with inBlock := false }

/-- A scope as it is when it is opened: of a match no arm was written. -/
def Scope.IsFresh : Scope → Prop
  | .function _ => True
  | .arms m => m.emitted = 0 ∧ m.inBlock = false

lemma Scope.isFresh_function (signature : Signature) : (function signature).IsFresh := trivial

lemma Scope.isFresh_arms (scrutinee : String) (patterns : List String) (binding : Option String) :
    (arms ⟨scrutinee, patterns, binding, 0, false⟩).IsFresh :=
  ⟨rfl, rfl⟩

/-- What can happen to an emitter. Nothing below the innermost scope is ever touched, and a scope
that is opened gets a number that none had before. -/
inductive Emitter.Step (e : Emitter) : Effect → Emitter → Prop where
  | line (text : String) : e.Step (.line text) (e.write text)
  | opens {scope : Scope} (fresh : scope.IsFresh) (inside : scope.kind = .arms → e.frames ≠ []) :
      e.Step (.opens scope) ⟨e.lines ++ scope.header.map (indented e.depth),
        ⟨e.opened, scope⟩ :: e.frames, e.opened + 1⟩
  | closes {frame : Frame} {outer : List Frame} {last : List String}
      (frames : e.frames = frame :: outer) (closable : Emission.closing frame.scope = .ok last) :
      e.Step .closes
        ⟨e.lines ++ (last.map (indented e.depth) ++ indented (levelOf outer) frame.scope.trailer ::
          if outer = [] ∧ frame.scope.kind = .function then [""] else []), outer, e.opened⟩
  | arm {serial : Nat} {m m' : MatchScope} {outer : List Frame} {part : ArmPart} {text : String}
      (frames : e.frames = ⟨serial, .arms m⟩ :: outer) (writes : m.Writes part text m') :
      e.Step (.arm part) ⟨e.lines ++ [indented (levelOf outer + 1) text],
        ⟨serial, .arms m'⟩ :: outer, e.opened⟩

/-- Lines are only ever added. -/
lemma Emitter.Step.prefix_lines {e e' : Emitter} {effect : Effect} (h : e.Step effect e') :
    e.lines <+: e'.lines := by
  cases h with
  | line text => exact ⟨[_], rfl⟩
  | opens => exact ⟨_, rfl⟩
  | closes => exact ⟨_, rfl⟩
  | arm => exact ⟨_, rfl⟩

/-! ### Operations on an emitter -/

namespace Emission

variable {α : Type}

/-- The operation has the effect, or it fails and nothing happens. -/
def Does (effect : Effect) (x : Emission α) : Prop := ∀ e : Emitter,
  (∃ a e', x e = .ok a e' ∧ e.Step effect e') ∨ ∃ fault, x e = .error fault e

lemma Does.discard {effect : Effect} {x : Emission α} (h : Does effect x) :
    Does effect (Functor.discard x) := by
  intro e
  rcases h e with ⟨a, e', hrun, hstep⟩ | ⟨fault, hrun⟩
  · refine Or.inl ⟨(), e', ?_, hstep⟩
    rw [discard_eq_bind, run_bind hrun]
    rfl
  · refine Or.inr ⟨fault, ?_⟩
    rw [discard_eq_bind, run_bind_of_error hrun]

lemma does_line (text : String) : Does (.line text) (line text) :=
  fun _ => Or.inl ⟨(), _, rfl, .line text⟩

/-- A scope gets the next number, unless it is a match outside of every function. -/
lemma openScope_cases {scope : Scope} (hfresh : scope.IsFresh) (e : Emitter) :
    (∃ e', openScope scope e = .ok ⟨e.opened, false⟩ e' ∧ e.Step (.opens scope) e') ∨
      ∃ fault, openScope scope e = .error fault e := by
  by_cases hinside : scope.kind = .arms → e.frames ≠ []
  · exact Or.inl ⟨_, openScope_eq hinside, .opens hfresh hinside⟩
  · obtain ⟨hkind, hframes⟩ := Classical.not_imp.mp hinside
    cases scope with
    | function signature => cases hkind
    | arms m =>
        have hempty : e.frames.isEmpty = true := List.isEmpty_iff.mpr (not_not.mp hframes)
        refine Or.inr ⟨.matchOutsideFunction m.scrutinee, ?_⟩
        rw [openScope, run_bind (run_get e)]
        dsimp only
        rw [if_pos hempty]
        rfl

lemma does_openScope {scope : Scope} (hfresh : scope.IsFresh) :
    Does (.opens scope) (openScope scope) := by
  intro e
  rcases openScope_cases hfresh e with ⟨e', hrun, hstep⟩ | hfail
  · exact Or.inl ⟨_, e', hrun, hstep⟩
  · exact Or.inr hfail

lemma does_closeScope : Does .closes closeScope := by
  intro e
  cases hframes : e.frames with
  | nil =>
      refine Or.inr ⟨.nothingOpen, ?_⟩
      rw [closeScope, run_bind (run_get e)]
      dsimp only
      rw [hframes]
      rfl
  | cons frame outer =>
      cases hclosing : closing frame.scope with
      | error fault =>
          refine Or.inr ⟨fault, ?_⟩
          rw [closeScope, run_bind (run_get e)]
          dsimp only
          rw [hframes]
          dsimp only
          rw [hclosing]
          rfl
      | ok last =>
          exact Or.inl ⟨(), _, closeScope_eq hframes hclosing, .closes hframes hclosing⟩

/-- The innermost scope is a match, or what is done with it fails. -/
lemma currentMatch_cases (e : Emitter) :
    (∃ serial m outer, e.frames = ⟨serial, .arms m⟩ :: outer) ∨
      currentMatch e = .error .notInMatch e := by
  have hother : (∀ m, e.top? ≠ some (.arms m)) → currentMatch e = .error .notInMatch e := by
    intro h
    rw [currentMatch, run_bind (run_get e)]
    cases htop : e.top? with
    | none => rfl
    | some scope =>
        cases scope with
        | function signature => rfl
        | arms m => exact absurd htop (h m)
  cases hframes : e.frames with
  | nil => exact Or.inr (hother fun m => by simp [top?, hframes])
  | cons frame outer =>
      obtain ⟨serial, scope⟩ := frame
      cases scope with
      | function signature => exact Or.inr (hother fun m => by simp [top?, hframes])
      | arms m => exact Or.inl ⟨serial, m, outer, rfl⟩

/-- The innermost scope is a match between two arms with a pattern left, or there is no next
pattern to be had. -/
lemma nextPattern_cases (e : Emitter) :
    (∃ serial m outer pattern, e.frames = ⟨serial, .arms m⟩ :: outer ∧ m.inBlock = false ∧
      m.patterns[m.emitted]? = some pattern) ∨ ∃ fault, nextPattern e = .error fault e := by
  rcases currentMatch_cases e with ⟨serial, m, outer, hframes⟩ | hfail
  · by_cases hblock : m.inBlock = true
    · refine Or.inr ⟨.armOpen (m.patterns.getD (m.emitted - 1) ""), ?_⟩
      rw [nextPattern, run_bind (currentMatch_eq hframes)]
      dsimp only
      rw [if_pos hblock]
      rfl
    · cases hpattern : m.patterns[m.emitted]? with
      | none =>
          refine Or.inr ⟨.armsExhausted m.patterns.length m.scrutinee, ?_⟩
          rw [nextPattern, run_bind (currentMatch_eq hframes)]
          dsimp only
          rw [if_neg hblock, hpattern]
          rfl
      | some pattern =>
          exact Or.inl ⟨serial, m, outer, pattern, hframes, eq_false_of_ne_true hblock, hpattern⟩
  · exact Or.inr ⟨.notInMatch, run_bind_of_error hfail⟩

section Match

variable {e : Emitter} {serial : Nat} {m : MatchScope} {outer : List Frame}

/-- Between two arms, a line is one level in. -/
lemma line_eq (text : String) (hframes : e.frames = ⟨serial, .arms m⟩ :: outer)
    (hblock : m.inBlock = false) :
    line text e = .ok () { e with lines := e.lines ++ [indented (levelOf outer + 1) text] } := by
  have hlevel : e.depth = levelOf outer + 1 := by
    rw [depth_eq, hframes, levelOf_cons, Scope.levels, hblock, Nat.add_comm]
    rfl
  rw [← hlevel, ← write_eq]
  rfl

end Match

lemma does_arm (body : String) : Does (.arm (.whole body)) (arm body) := by
  intro e
  rcases nextPattern_cases e with
    ⟨serial, m, outer, pattern, hframes, hblock, hpattern⟩ | ⟨fault, hfail⟩
  · refine Or.inl ⟨(), _, ?_, .arm hframes (.whole body hblock hpattern)⟩
    rw [arm, run_bind (nextPattern_eq hframes hblock hpattern)]
    exact line_eq _ rfl hblock
  · exact Or.inr ⟨fault, run_bind_of_error hfail⟩

lemma does_beginArm : Does (.arm .opening) beginArm := by
  intro e
  rcases nextPattern_cases e with
    ⟨serial, m, outer, pattern, hframes, hblock, hpattern⟩ | ⟨fault, hfail⟩
  · refine Or.inl ⟨(), _, ?_, .arm hframes (.opening hblock hpattern)⟩
    have hline := line_eq (m := { m with emitted := m.emitted + 1 })
      (e := { e with frames := ⟨serial, .arms { m with emitted := m.emitted + 1 }⟩ :: outer })
      (pattern ++ " => \x7b") rfl hblock
    rw [beginArm, run_bind (nextPattern_eq hframes hblock hpattern), run_bind hline,
      run_bind (currentMatch_eq rfl)]
    exact modify_setTop rfl _
  · exact Or.inr ⟨fault, run_bind_of_error hfail⟩

lemma does_endArm : Does (.arm .ending) endArm := by
  intro e
  rcases currentMatch_cases e with ⟨serial, m, outer, hframes⟩ | hfail
  · by_cases hblock : m.inBlock = true
    · refine Or.inl ⟨(), _, ?_, .arm hframes (.ending hblock)⟩
      rw [endArm, run_bind (currentMatch_eq hframes)]
      dsimp only
      rw [if_neg (by rw [hblock]; decide), run_bind (modify_setTop hframes _)]
      exact line_eq _ rfl rfl
    · refine Or.inr ⟨.noArmOpen, ?_⟩
      rw [endArm, run_bind (currentMatch_eq hframes)]
      dsimp only
      rw [if_pos (by rw [eq_false_of_ne_true hblock]; decide)]
      rfl
  · exact Or.inr ⟨.notInMatch, run_bind_of_error hfail⟩

/-- The scope of a guard that was not used is closed if it is the innermost one. -/
lemma close_cases (guard : Guard) (e : Emitter) :
    (guard.closed = false ∧ e.frames.head?.map Frame.serial = some guard.serial ∧
      ∃ e', close guard e = .ok { guard with closed := true } e' ∧ e.Step .closes e') ∨
      ∃ fault, close guard e = .error fault e := by
  by_cases hused : guard.closed = true
  · refine Or.inr ⟨.guardClosed, ?_⟩
    rw [close, if_pos hused]
    rfl
  · by_cases hinner : e.frames.head?.map Frame.serial = some guard.serial
    · have hclose : close guard e =
          (closeScope >>= fun _ => pure { guard with closed := true }) e := by
        rw [close, if_neg hused]
        dsimp only
        rw [run_bind (run_get e), if_neg (by simpa using hinner)]
      rcases does_closeScope e with ⟨_, e', hrun, hstep⟩ | ⟨fault, hfail⟩
      · refine Or.inl ⟨eq_false_of_ne_true hused, hinner, e', ?_, hstep⟩
        rw [hclose, run_bind hrun]
        rfl
      · exact Or.inr ⟨fault, hclose.trans (run_bind_of_error hfail)⟩
    · refine Or.inr ⟨.guardOrder, ?_⟩
      rw [close, if_neg hused]
      dsimp only
      rw [run_bind (run_get e), if_pos (by simpa using hinner)]
      rfl

end Emission

/-! ### Statements -/

/-- What a statement does that does one thing. -/
def Statement.effect? : Statement → Option Effect
  | .openFunction signature => some (.opens (.function signature))
  | .openMatch scrutinee patterns binding =>
      some (.opens (.arms ⟨scrutinee, patterns, binding, 0, false⟩))
  | .closeScope => some .closes
  | .arm body => some (.arm (.whole body))
  | .armBlock _ => none
  | s => s.text?.map .line

lemma Statement.does_emit {s : Statement} {effect : Effect} (h : s.effect? = some effect) :
    Emission.Does effect s.emit := by
  cases s <;> cases h <;> rw [emit]
  case openFunction => exact (Emission.does_openScope (Scope.isFresh_function _)).discard
  case openMatch => exact (Emission.does_openScope (Scope.isFresh_arms _ _ _)).discard
  case closeScope => exact Emission.does_closeScope
  case arm => exact Emission.does_arm _
  all_goals exact Emission.does_line _

/-! ### Single steps -/

namespace Operation

/-- The steps that do one thing at most; the others write a whole block or wrapper. -/
def IsSingle : Operation → Prop
  | .emit (.armBlock _) | .marshal _ | .destructor .. => False
  | _ => True

/-- What a single step does if it does anything, apart from the steps that use a guard. -/
def effect? : Operation → Option Effect
  | .openFunction signature => some (.opens (.function signature))
  | .openMatch scrutinee patterns binding =>
      some (.opens (.arms ⟨scrutinee, patterns, binding, 0, false⟩))
  | .closeScope => some .closes
  | .arm body => some (.arm (.whole body))
  | .beginArm => some (.arm .opening)
  | .endArm => some (.arm .ending)
  | .line text => some (.line text)
  | .emit s => s.effect?
  | .close _ | .leave .. | .marshal _ | .destructor .. | .source | .flush _ => none

end Operation

/-- How a single step of a session ends. -/
inductive Performed (operation : Operation) (s : Session) :
    EStateM.Result Failure Session Reply → Prop where
  /-- It fails, and the session is as it was. -/
  | refused (failure : Failure) : Performed operation s (.error failure s)
  /-- The text could not be written to its file. -/
  | unwritten (fault : FileFault) (files : FileTree) :
      Performed operation s (.error (.file fault) { s with files := files })
  /-- There was nothing to do for the emitter. -/
  | rested (noEffect : operation.effect? = none) (reply : Reply) (files : FileTree) :
      Performed operation s (.ok reply { s with files := files })
  /-- It has its effect. -/
  | done {effect : Effect} {e' : Emitter} (does : operation.effect? = some effect)
      (step : s.emitter.Step effect e') :
      Performed operation s (.ok .nothing { s with emitter := e' })
  /-- It opens a scope, and there is a new guard. -/
  | guarded {scope : Scope} {e' : Emitter} (does : operation.effect? = some (.opens scope))
      (step : s.emitter.Step (.opens scope) e') :
      Performed operation s (.ok (.guard s.guards.length)
        { s with emitter := e', guards := s.guards ++ [⟨s.emitter.opened, false⟩] })
  /-- It closes the scope of a guard. -/
  | closed {index : Nat} {guard : Guard} {e' : Emitter} (noEffect : operation.effect? = none)
      (found : s.guards[index]? = some guard) (unused : guard.closed = false)
      (innermost : s.emitter.frames.head?.map Frame.serial = some guard.serial)
      (step : s.emitter.Step .closes e') :
      Performed operation s (.ok .nothing
        { s with emitter := e', guards := s.guards.set index { guard with closed := true } })

namespace Session

variable {α : Type}

/-- A session after steps, of which each one may fail. -/
def runAll (s : Session) (operations : List Operation) : Session :=
  operations.foldl (fun s operation => after (perform operation) s) s

lemma runAll_append (s : Session) (operations operations' : List Operation) :
    s.runAll (operations ++ operations') = (s.runAll operations).runAll operations' :=
  List.foldl_append

lemma emission_of_ok {x : Emission α} {s : Session} {a : α} {e : Emitter}
    (h : x s.emitter = .ok a e) : emission x s = .ok a { s with emitter := e } := by
  rw [emission, h]

lemma emission_of_error {x : Emission α} {s : Session} {fault : ScopeFault} {e : Emitter}
    (h : x s.emitter = .error fault e) :
    emission x s = .error (.scope fault) { s with emitter := e } := by
  rw [emission, h]

/-- Where a step on the emitter alone leaves off. -/
lemma after_emission (x : Emission α) (s : Session) :
    after (emission x >>= fun _ => (return .nothing : Action Reply)) s =
      { s with emitter := after x s.emitter } := by
  cases hrun : x s.emitter with
  | ok a e =>
      rw [after_bind_of_ok (emission_of_ok hrun), after_of_ok hrun]
      rfl
  | error fault e =>
      rw [after_bind_of_error (emission_of_error hrun), after_of_error hrun]

/-- A step on the emitter alone. -/
lemma performed_emission {operation : Operation} {effect : Effect} {x : Emission Unit}
    (hdoes : operation.effect? = some effect) (h : Emission.Does effect x) (s : Session) :
    Performed operation s ((emission x >>= fun _ => pure .nothing) s) := by
  rcases h s.emitter with ⟨_, e', hrun, hstep⟩ | ⟨fault, hfail⟩
  · rw [run_bind (emission_of_ok hrun)]
    exact .done hdoes hstep
  · rw [run_bind_of_error (emission_of_error hfail)]
    exact .refused _

/-- Opening a scope for a new guard. -/
lemma performed_openScope {operation : Operation} {scope : Scope} (hfresh : scope.IsFresh)
    (hdoes : operation.effect? = some (.opens scope)) (s : Session) :
    Performed operation s ((emission (Emission.openScope scope) >>= keep) s) := by
  rcases Emission.openScope_cases hfresh s.emitter with ⟨e', hrun, hstep⟩ | ⟨fault, hfail⟩
  · rw [run_bind (emission_of_ok hrun)]
    exact .guarded hdoes hstep
  · rw [run_bind_of_error (emission_of_error hfail)]
    exact .refused _

/-- Closing the scope of a guard: the guard was not used, and its scope is the innermost one. -/
lemma perform_close_cases (index : Nat) (s : Session) :
    (∃ guard e', s.guards[index]? = some guard ∧ guard.closed = false ∧
      s.emitter.frames.head?.map Frame.serial = some guard.serial ∧ s.emitter.Step .closes e' ∧
      perform (.close index) s = .ok .nothing
        { s with emitter := e', guards := s.guards.set index { guard with closed := true } }) ∨
      ∃ failure, perform (.close index) s = .error failure s := by
  cases hfound : s.guards[index]? with
  | none =>
      refine Or.inr ⟨.scope .nothingOpen, ?_⟩
      rw [perform, withGuard, run_bind (run_get s), hfound]
      rfl
  | some guard =>
      have heq : perform (.close index) s = (emission (Emission.close guard) >>= fun g => do
          modify fun s => { s with guards := s.guards.set index g }
          return .nothing) s := by
        rw [perform, withGuard, run_bind (run_get s), hfound]
      rcases Emission.close_cases guard s.emitter with
        ⟨hunused, hinner, e', hrun, hstep⟩ | ⟨fault, hfail⟩
      · refine Or.inl ⟨guard, e', rfl, hunused, hinner, hstep, ?_⟩
        rw [heq, run_bind (emission_of_ok hrun)]
        rfl
      · exact Or.inr ⟨_, heq.trans (run_bind_of_error (emission_of_error hfail))⟩

/-- Leaving the block of a guard closes its scope, or there is nothing to do. -/
lemma perform_leave_eq (index : Nat) (failed : Bool) (s : Session) :
    perform (.leave index failed) s = perform (.close index) s ∨
      perform (.leave index failed) s = .ok .nothing s := by
  cases hfound : s.guards[index]? with
  | none =>
      refine Or.inl ?_
      rw [perform, perform, withGuard, withGuard, run_bind (run_get s), run_bind (run_get s),
        hfound]
  | some guard =>
      have heq : ∀ x : Guard → Emission Guard, withGuard index x s =
          (emission (x guard) >>= fun g => do
            modify fun s => { s with guards := s.guards.set index g }
            return .nothing) s := by
        intro x
        rw [withGuard, run_bind (run_get s), hfound]
      rw [perform, perform, heq, heq, Emission.leave]
      by_cases hdone : (failed || guard.closed) = true
      · have hsame : s.guards.set index guard = s.guards := by
          obtain ⟨hindex, rfl⟩ := List.getElem?_eq_some_iff.mp hfound
          exact List.set_getElem_self hindex
        refine Or.inr ?_
        rw [if_pos hdone]
        change EStateM.Result.ok Reply.nothing { s with guards := s.guards.set index guard } = _
        rw [hsame]
      · rw [if_neg hdone]
        exact Or.inl rfl

lemma performed_close {operation : Operation} (hnone : operation.effect? = none) (index : Nat)
    (s : Session) : Performed operation s (perform (.close index) s) := by
  rcases perform_close_cases index s with
    ⟨guard, e', hfound, hunused, hinner, hstep, hrun⟩ | ⟨failure, hfail⟩
  · rw [hrun]
    exact .closed hnone hfound hunused hinner hstep
  · rw [hfail]
    exact .refused failure

/-- The action changes the files at most, and only they can make it fail. -/
def FilesOnly (x : Action α) : Prop := ∀ s : Session, ∃ files,
  (∃ a, x s = .ok a { s with files := files }) ∨
    ∃ fault, x s = .error (.file fault) { s with files := files }

lemma filesOnly_filing (x : Filing α) : FilesOnly (filing x) := by
  intro s
  cases hrun : x s.files with
  | ok a files => exact ⟨files, Or.inl ⟨a, by rw [filing, hrun]⟩⟩
  | error fault files => exact ⟨files, Or.inr ⟨fault, by rw [filing, hrun]⟩⟩

lemma FilesOnly.bind {β : Type} {x : Action α} {f : α → Action β} (hx : FilesOnly x)
    (hf : ∀ a, FilesOnly (f a)) : FilesOnly (x >>= f) := by
  intro s
  obtain ⟨files, ⟨a, hrun⟩ | ⟨fault, hfail⟩⟩ := hx s
  · rw [run_bind hrun]
    exact hf a { s with files := files }
  · exact ⟨files, Or.inr ⟨fault, run_bind_of_error hfail⟩⟩

/-- Writing the text to a file is refused while a scope is open, and changes the files at most. -/
lemma performed_flush (path : Path) (s : Session) :
    Performed (.flush path) s (perform (.flush path) s) := by
  by_cases hclosed : s.emitter.frames.isEmpty = true
  · have hfinish : Emission.finish s.emitter = .ok s.emitter.source s.emitter := by
      rw [Emission.finish, run_bind (run_get _), if_pos hclosed]
      rfl
    have hwrite : ∀ text, FilesOnly (filing (Filing.makeDirectories path.parent) >>= fun _ =>
        filing (Filing.write path text) >>= fun _ => (return .text text : Action Reply)) :=
      fun text => (filesOnly_filing _).bind fun _ => (filesOnly_filing _).bind fun _ s =>
        ⟨s.files, Or.inl ⟨_, rfl⟩⟩
    have heq : perform (.flush path) s = (filing (Filing.makeDirectories path.parent) >>= fun _ =>
        filing (Filing.write path s.emitter.source) >>= fun _ =>
          (return .text s.emitter.source : Action Reply)) s := by
      rw [perform, writeTo, bind_assoc, run_bind (emission_of_ok hfinish)]
      simp only [bind_assoc, pure_bind]
    rw [heq]
    obtain ⟨files, ⟨reply, hrun⟩ | ⟨fault, hfail⟩⟩ := hwrite s.emitter.source s
    · rw [hrun]
      exact .rested rfl reply files
    · rw [hfail]
      exact .unwritten fault files
  · have hfail : Emission.finish s.emitter =
        .error (.scopesOpen (s.emitter.frames.reverse.map fun f => f.scope.kind)) s.emitter := by
      rw [Emission.finish, run_bind (run_get _), if_neg hclosed]
      rfl
    rw [perform, writeTo, bind_assoc, run_bind_of_error (emission_of_error hfail)]
    exact .refused _

end Session

/-- A single step ends in one of these ways. -/
lemma performed {operation : Operation} (h : operation.IsSingle) (s : Session) :
    Performed operation s (Session.perform operation s) := by
  cases operation with
  | openFunction signature => exact Session.performed_openScope (Scope.isFresh_function _) rfl s
  | openMatch scrutinee patterns binding =>
      exact Session.performed_openScope (Scope.isFresh_arms _ _ _) rfl s
  | close index => exact Session.performed_close rfl index s
  | leave index failed =>
      rcases Session.perform_leave_eq index failed s with heq | heq
      · rw [heq]
        exact Session.performed_close rfl index s
      · rw [heq]
        exact .rested rfl .nothing s.files
  | closeScope => exact Session.performed_emission rfl Emission.does_closeScope s
  | arm body => exact Session.performed_emission rfl (Emission.does_arm body) s
  | beginArm => exact Session.performed_emission rfl Emission.does_beginArm s
  | endArm => exact Session.performed_emission rfl Emission.does_endArm s
  | line text => exact Session.performed_emission rfl (Emission.does_line text) s
  | emit statement =>
      have heffect : ∃ effect, statement.effect? = some effect := by
        cases statement
        case armBlock => exact h.elim
        all_goals exact ⟨_, rfl⟩
      obtain ⟨effect, heffect⟩ := heffect
      have hdoes : (Operation.emit statement).effect? = some effect := heffect
      exact Session.performed_emission hdoes (Statement.does_emit heffect) s
  | marshal descriptor => exact h.elim
  | destructor owner exportName => exact h.elim
  | source => exact .rested rfl _ s.files
  | flush path => exact Session.performed_flush path s

/-- A single step has one effect on the emitter, or none. -/
lemma Performed.emitter_cases {operation : Operation} {s : Session}
    (h : Performed operation s (Session.perform operation s)) :
    (after (Session.perform operation) s).emitter = s.emitter ∨
      ∃ effect, s.emitter.Step effect (after (Session.perform operation) s).emitter := by
  rw [after]
  generalize Session.perform operation s = result at h
  cases h with
  | refused | unwritten | rested => exact Or.inl rfl
  | done _ hstep | guarded _ hstep => exact Or.inr ⟨_, hstep⟩
  | closed _ _ _ _ hstep => exact Or.inr ⟨_, hstep⟩

/-! ### Blocks and wrappers -/

/-- The operation does what a run of single steps does, and leaves off where it does. -/
def IsRun {α : Type} (x : Emission α) : Prop := ∀ s : Session, ∃ operations : List Operation,
  (∀ o ∈ operations, o.IsSingle) ∧
    s.runAll operations = { s with emitter := after x s.emitter }

namespace IsRun

lemma pure {α : Type} (a : α) : IsRun (Pure.pure a : Emission α) :=
  fun _ => ⟨[], fun _ h => absurd h List.not_mem_nil, rfl⟩

/-- A single step on the emitter alone. -/
lemma single (operation : Operation) {x : Emission Unit} (h : operation.IsSingle)
    (heq : Session.perform operation = (Session.emission x >>= fun _ => return .nothing)) :
    IsRun x := by
  intro s
  refine ⟨[operation], List.forall_mem_singleton.mpr h, ?_⟩
  change after (Session.perform operation) s = _
  rw [heq, Session.after_emission]

lemma bind {α β : Type} {x : Emission α} {f : α → Emission β} (hx : IsRun x)
    (hf : ∀ a, IsRun (f a)) : IsRun (x >>= f) := by
  intro s
  obtain ⟨first, hfirst, hrunFirst⟩ := hx s
  cases hrun : x s.emitter with
  | error fault e =>
      refine ⟨first, hfirst, ?_⟩
      rw [hrunFirst, after_bind_of_error hrun, after_of_error hrun]
  | ok a e =>
      obtain ⟨second, hsecond, hrunSecond⟩ := hf a { s with emitter := e }
      refine ⟨first ++ second, List.forall_mem_append.mpr ⟨hfirst, hsecond⟩, ?_⟩
      rw [Session.runAll_append, hrunFirst, after_of_ok hrun, hrunSecond, after_bind_of_ok hrun]

end IsRun

namespace Statement

mutual

lemma isRun_emit : ∀ s : Statement, IsRun s.emit
  | .armBlock body => by
      rw [emit]
      refine (IsRun.single .beginArm trivial rfl).bind fun _ => ?_
      refine (isRun_emitAll body).bind fun _ => ?_
      exact .single .endArm trivial rfl
  | .openFunction signature => .single (.emit (.openFunction signature)) trivial rfl
  | .openMatch scrutinee patterns binding =>
      .single (.emit (.openMatch scrutinee patterns binding)) trivial rfl
  | .closeScope => .single (.emit .closeScope) trivial rfl
  | .arm body => .single (.emit (.arm body)) trivial rfl
  | .bind name value isMutable typeName unchecked =>
      .single (.emit (.bind name value isMutable typeName unchecked)) trivial rfl
  | .storeOut pointer value => .single (.emit (.storeOut pointer value)) trivial rfl
  | .line text => .single (.emit (.line text)) trivial rfl
  | .call expression binding => .single (.emit (.call expression binding)) trivial rfl
  | .reclaim name native isMutable consume =>
      .single (.emit (.reclaim name native isMutable consume)) trivial rfl
  | .release name => .single (.emit (.release name)) trivial rfl

lemma isRun_emitAll : ∀ ss : List Statement, IsRun (emitAll ss)
  | [] => by
      rw [emitAll]
      exact .pure ()
  | s :: ss => by
      rw [emitAll]
      exact (isRun_emit s).bind fun _ => isRun_emitAll ss

end

end Statement

/-- A step that writes what was compiled. -/
lemma exists_singles_emitWrapper (w : Except DescriptorFault Wrapper) (reply : Nat → Reply)
    (s : Session) : ∃ operations : List Operation, (∀ o ∈ operations, o.IsSingle) ∧
      s.runAll operations =
        after (Session.emitWrapper w >>= fun n => (pure (reply n) : Session.Action Reply)) s := by
  cases w with
  | error fault => exact ⟨[], fun _ h => absurd h List.not_mem_nil, rfl⟩
  | ok w =>
      obtain ⟨operations, hsingle, hrun⟩ := Statement.isRun_emitAll w.plan s
      refine ⟨operations, hsingle, hrun.trans ?_⟩
      rw [← Wrapper.emit]
      cases hemit : w.emit s.emitter with
      | ok a e =>
          have hwrapper : Session.emitWrapper (.ok w) s =
              .ok w.plan.length { s with emitter := e } := by
            rw [Session.emitWrapper, run_bind (Session.emission_of_ok hemit)]
            rfl
          rw [after_bind_of_ok hwrapper, after_of_ok hemit]
          rfl
      | error fault e =>
          have hwrapper : Session.emitWrapper (.ok w) s =
              .error (.scope fault) { s with emitter := e } := by
            rw [Session.emitWrapper, run_bind_of_error (Session.emission_of_error hemit)]
          rw [after_bind_of_error hwrapper, after_of_error hemit]

/-- Every step, whatever it writes, leaves off where a run of single steps does. -/
lemma exists_singles (operation : Operation) (s : Session) :
    ∃ operations : List Operation, (∀ o ∈ operations, o.IsSingle) ∧
      s.runAll operations = after (Session.perform operation) s := by
  by_cases hsingle : operation.IsSingle
  · exact ⟨[operation], List.forall_mem_singleton.mpr hsingle, rfl⟩
  · cases operation with
    | emit statement =>
        obtain ⟨operations, hsingles, hrun⟩ := Statement.isRun_emit statement s
        exact ⟨operations, hsingles, hrun.trans (Session.after_emission statement.emit s).symm⟩
    | marshal descriptor => exact exists_singles_emitWrapper descriptor.compile .count s
    | destructor owner exportName =>
        exact exists_singles_emitWrapper (compileDestructor owner exportName) (fun _ => .nothing) s
    | _ => exact absurd trivial hsingle

/-! ### Runs -/

namespace Session

/-- A run in which single steps stand for every step that writes a whole block or wrapper, and leave
off where it does. -/
inductive Expands : Session → List Operation → List Operation → Prop where
  | nil (s : Session) : Expands s [] []
  | single {s : Session} {operation : Operation} {operations steps : List Operation}
      (isSingle : operation.IsSingle)
      (rest : Expands (after (perform operation) s) operations steps) :
      Expands s (operation :: operations) (operation :: steps)
  | whole {s : Session} {operation : Operation} {operations front steps : List Operation}
      (notSingle : ¬operation.IsSingle) (singles : ∀ o ∈ front, o.IsSingle)
      (same : s.runAll front = after (perform operation) s)
      (rest : Expands (after (perform operation) s) operations steps) :
      Expands s (operation :: operations) (front ++ steps)

namespace Expands

variable {s : Session} {operations steps : List Operation}

lemma isSingle (h : s.Expands operations steps) : ∀ o ∈ steps, o.IsSingle := by
  induction h with
  | nil => exact fun _ ho => absurd ho List.not_mem_nil
  | single hsingle _ ih => exact List.forall_mem_cons.mpr ⟨hsingle, ih⟩
  | whole _ hsingles _ _ ih => exact List.forall_mem_append.mpr ⟨hsingles, ih⟩

lemma runAll_eq (h : s.Expands operations steps) : s.runAll steps = s.runAll operations := by
  induction h with
  | nil => rfl
  | single _ _ ih => exact ih
  | whole _ _ hsame _ ih =>
      rw [runAll_append, hsame, ih]
      rfl

end Expands

lemma exists_expands (s : Session) (operations : List Operation) :
    ∃ steps, s.Expands operations steps := by
  induction operations generalizing s with
  | nil => exact ⟨[], .nil s⟩
  | cons operation operations ih =>
      obtain ⟨steps, hsteps⟩ := ih (after (perform operation) s)
      by_cases hsingle : operation.IsSingle
      · exact ⟨operation :: steps, .single hsingle hsteps⟩
      · obtain ⟨front, hsingles, hsame⟩ := exists_singles operation s
        exact ⟨front ++ steps, .whole hsingle hsingles hsame hsteps⟩

/-- What no single step spoils holds after every run. -/
lemma keeps_runAll {P : Session → Prop}
    (hstep : ∀ s operation, operation.IsSingle → P s → P (after (perform operation) s))
    {s : Session} (h : P s) (operations : List Operation) : P (s.runAll operations) := by
  obtain ⟨steps, hsteps⟩ := s.exists_expands operations
  have hsingle := hsteps.isSingle
  rw [← hsteps.runAll_eq]
  clear hsteps
  induction steps generalizing s with
  | nil => exact h
  | cons step steps ih =>
      obtain ⟨hfirst, hrest⟩ := List.forall_mem_cons.mp hsingle
      exact ih (hstep s step hfirst h) hrest

/-- What nothing that can happen to an emitter spoils holds after every run. -/
lemma keeps_emitter {P : Emitter → Prop} (hstep : ∀ e effect e', P e → e.Step effect e' → P e')
    {s : Session} (h : P s.emitter) (operations : List Operation) :
    P (s.runAll operations).emitter := by
  refine keeps_runAll (P := fun s => P s.emitter) (fun s operation hsingle hs => ?_) h operations
  rcases (performed hsingle s).emitter_cases with hsame | ⟨effect, hdone⟩
  · rwa [hsame]
  · exact hstep _ effect _ hs hdone

end Session

end AbiBridge
