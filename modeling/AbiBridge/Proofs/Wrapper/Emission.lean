import AbiBridge.Proofs.Source.Block
import AbiBridge.Proofs.Wrapper.Exit
import AbiBridge.Source.Session

/-!
Writing wrappers.

A descriptor is written whole or not at all, and the scopes that are open around it decide about
nothing but the level of its lines.

* `WrittenAs w block`: the plan of `w` is written as `block`, in every emitter and every time;
* `WritesWhole`: what a step of a session that writes a wrapper may do;
* `perform_writesWhole`: the steps for wrappers and for destructors do no more.
-/

namespace AbiBridge

open Emitter Outcome

/-! ### What is written -/

/-- The lines that an emitter gets for a block: an empty one follows if no scope is open. -/
def Emitter.placed (e : Emitter) (block : List String) : List String :=
  block.map (indented e.depth) ++ if e.frames = [] then [""] else []

/-- At the outermost level a block stays as it is. -/
lemma Emitter.placed_of_frames_eq_nil {e : Emitter} (h : e.frames = []) (block : List String) :
    e.placed block = block ++ [""] := by
  have hlevel : e.depth = 0 := by
    rw [depth_eq, h]
    rfl
  rw [placed, if_pos h, hlevel, map_indented_zero]

/-- The plan of a wrapper is written as a block. -/
structure WrittenAs (w : Wrapper) (block : List String) : Prop where
  /-- In an empty emitter, these are the lines. -/
  fresh : ∃ e, w.emit {} = .ok () e ∧ e.lines = block ++ [""] ∧ e.frames = []
  /-- In any emitter, these are the lines that are added, and the scopes stay as they were. -/
  anywhere : ∀ e : Emitter, Yields w.emit e (e.placed block) e.frames
  /-- Every time that the plan is written, it adds the same lines. -/
  repeated : ∀ (n : Nat) (e : Emitter), Yields ((List.replicate n w).forM Wrapper.emit) e
    (List.replicate n (e.placed block)).flatten e.frames

/-- What a step of a session does that writes a wrapper, if there is one. -/
structure WritesWhole (operation : Operation) (compiled : Except DescriptorFault Wrapper) :
    Prop where
  /-- Without a wrapper the step fails, and the session is as it was. -/
  rejected : ∀ fault, compiled = .error fault →
    ∀ s, Session.perform operation s = .error (.descriptor fault) s
  /-- With a wrapper it succeeds, and adds the lines of the wrapper to those of the session. -/
  accepted : ∀ w, compiled = .ok w → ∃ block, WrittenAs w block ∧
    ∀ s, ∃ reply s', Session.perform operation s = .ok reply s' ∧
      s'.emitter.lines = s.emitter.lines ++ s.emitter.placed block ∧
      s'.emitter.frames = s.emitter.frames ∧ s'.guards = s.guards ∧ s'.files = s.files

/-- A wrapper whose body is a block. -/
lemma writtenAs_of_appends {w : Wrapper} {lines : List String}
    (h : Appends (Statement.emitAll w.body) lines) : WrittenAs w (w.block lines) where
  fresh := by
    obtain ⟨e, hrun, hlines, hframes⟩ := yields_wrapper h {}
    refine ⟨e, hrun, ?_, hframes⟩
    rw [hlines, List.nil_append, if_pos rfl]
    exact congrArg (· ++ [""]) (map_indented_zero _)
  anywhere := yields_wrapper h
  repeated := by
    intro n
    induction n with
    | zero => exact Yields.pure
    | succ n ih =>
        intro e
        rw [List.replicate_succ, List.replicate_succ, List.flatten_cons, List.forM_eq_forM,
          List.forM_cons]
        refine (yields_wrapper h e).bind fun e' hframes => ?_
        have hplaced : e.placed (w.block lines) = e'.placed (w.block lines) := by
          rw [placed, placed, depth_eq, depth_eq, hframes]
        rw [hplaced, ← hframes]
        exact ih e'

/-- A wrapper is written as one block only. -/
lemma WrittenAs.unique {w : Wrapper} {block block' : List String} (h : WrittenAs w block)
    (h' : WrittenAs w block') : block = block' := by
  obtain ⟨e, hrun, hlines, -⟩ := h.fresh
  obtain ⟨e', hrun', hlines', -⟩ := h'.fresh
  cases hrun.symm.trans hrun'
  exact List.append_cancel_right (hlines.symm.trans hlines')

/-- The text of a wrapper that is written alone. -/
lemma sourceOf_eq {w : Wrapper} {lines : List String}
    (h : Appends (Statement.emitAll w.body) lines) :
    Statement.sourceOf w.plan = .ok ("\n".intercalate (w.block lines) ++ "\n") := by
  obtain ⟨e, hrun, hlines, -⟩ := (writtenAs_of_appends h).fresh
  have hsource : e.source = "\n".intercalate (w.block lines) ++ "\n" := by
    rw [Wrapper.block, ← List.append_assoc] at hlines ⊢
    exact source_eq hlines
  have hrun : (Statement.emitAll w.plan).run {} = .ok () e := hrun
  rw [Statement.sourceOf, hrun]
  exact congrArg Except.ok hsource

/-! ### The bodies of wrappers -/

/-- The kinds of the statements that are a line each. -/
def lineKinds : List StatementKind := [.bind, .storeOut, .line, .call, .reclaim, .release]

lemma exists_texts {l : List Statement} (h : OnlyOf lineKinds l) :
    ∃ texts, List.Forall₂ (fun s text => s.text? = some text) l texts := by
  induction l with
  | nil => exact ⟨[], .nil⟩
  | cons s l ih =>
      obtain ⟨hs, hl⟩ := List.forall_mem_cons.mp h
      obtain ⟨texts, htexts⟩ := ih hl
      have htext : ∃ text, s.text? = some text := by
        cases s <;> first | exact ⟨_, rfl⟩ | simp [Statement.kind, lineKinds] at hs
      obtain ⟨text, htext⟩ := htext
      exact ⟨text :: texts, .cons htext htexts⟩

/-- Statements that are a block of lines. -/
def IsBlock (ss : List Statement) : Prop := ∃ lines, Appends (Statement.emitAll ss) lines

namespace IsBlock

lemma of_onlyOf {ss : List Statement} (h : OnlyOf lineKinds ss) : IsBlock ss := by
  obtain ⟨texts, htexts⟩ := exists_texts h
  exact ⟨texts, Statement.appends_emitAll_of_text htexts⟩

lemma append {ss ss' : List Statement} (h : IsBlock ss) (h' : IsBlock ss') :
    IsBlock (ss ++ ss') := by
  obtain ⟨lines, hlines⟩ := h
  obtain ⟨lines', hlines'⟩ := h'
  exact ⟨lines ++ lines', Statement.appends_emitAll_append hlines hlines'⟩

lemma flatMap {α : Type} {f : α → List Statement} {xs : List α} (h : ∀ x ∈ xs, IsBlock (f x)) :
    IsBlock (xs.flatMap f) := by
  induction xs with
  | nil => exact ⟨[], Statement.appends_emitAll_nil⟩
  | cons x xs ih =>
      obtain ⟨hx, hxs⟩ := List.forall_mem_cons.mp h
      rw [List.flatMap_cons]
      exact hx.append (ih hxs)

end IsBlock

/-- As many bodies as patterns. -/
lemma arms_map (patterns bodies : List String) (h : patterns.length = bodies.length) :
    ∃ lines, Arms patterns (bodies.map .arm) lines := by
  induction patterns generalizing bodies with
  | nil =>
      cases bodies with
      | nil => exact ⟨[], .nil⟩
      | cons body bodies => cases h
  | cons pattern patterns ih =>
      cases bodies with
      | nil => cases h
      | cons body bodies =>
          obtain ⟨lines, hlines⟩ := ih bodies (Nat.succ.inj h)
          exact ⟨_, .arm pattern body hlines⟩

/-- There are as many arms as ordinals, and a last one. -/
lemma isBlock_decodeEnum (name enumName : String) (variants : List String) :
    IsBlock (decodeEnum name enumName variants) := by
  have hlength : ((List.range variants.length).map (fun k => toString k) ++ ["_"]).length =
      ((variants.map fun v => enumName ++ "::" ++ v) ++ ["std::process::abort()"]).length := by
    simp
  obtain ⟨lines, hlines⟩ := arms_map _ _ hlength
  have hmatch : Appends
      (Statement.emitAll (.openMatch name _ (some name) :: _ ++ [.closeScope])) _ :=
    appends_match hlines
  rw [List.map_append, List.map_map, List.cons_append, List.append_assoc] at hmatch
  exact ⟨_, hmatch⟩

lemma RebuildRow.isBlock {name : String} {t : BoundaryType} {r : Rebuilt}
    (h : RebuildRow name t r) : IsBlock r.steps := by
  cases h with
  | scalar s => exact ⟨[], Statement.appends_emitAll_nil⟩
  | handle h text hhandles hname htext =>
      exact .of_onlyOf (.cons (by simp [Statement.kind, lineKinds]) .nil)
  | run elem text htext => exact .of_onlyOf (.cons (by simp [Statement.kind, lineKinds]) .nil)
  | ordinal s vs => exact isBlock_decodeEnum name s vs

namespace Assembly

variable {d : Descriptor} (a : Assembly d)

lemma isBlock_steps : IsBlock a.steps := by
  have hreceiver := (receiverRow a.receiver_eq).onlyOf.1
  refine .append (.of_onlyOf (hreceiver.mono (by simp [lineKinds]))) (.flatMap fun r hr => ?_)
  obtain ⟨arg, -, hrow⟩ := a.exists_rebuildRow hr
  exact hrow.isBlock

/-- What is done when the call failed is the block of an arm. -/
lemma isBlock_called : IsBlock a.called := by
  rw [called_eq, callStatement, arms]
  by_cases hfallible : d.fallible = true
  · rw [if_pos hfallible, if_pos hfallible]
    obtain ⟨texts, hfailure⟩ := IsBlock.of_onlyOf (a.onlyOf_failure.mono (by simp [lineKinds]))
    exact ⟨_, appends_match (.arm _ _ (.block _ hfailure .nil))⟩
  · rw [if_neg hfallible, if_neg hfallible]
    exact .of_onlyOf (.cons (by simp [Statement.kind, lineKinds]) .nil)

/-- What is written behind the call is a line each. -/
lemma onlyOf_tail : OnlyOf lineKinds (a.stores ++ a.releases ++ a.last) :=
  .append (.append (a.onlyOf_stores.mono (by simp [lineKinds]))
    (a.onlyOf_releases.mono (by simp [lineKinds]))) (a.onlyOf_last.mono (by simp [lineKinds]))

lemma isBlock_body : IsBlock a.wrapper.body := by
  have hbody : a.wrapper.body = a.steps ++ (a.called ++ (a.stores ++ a.releases ++ a.last)) := by
    simp only [wrapper, List.append_assoc]
  rw [hbody]
  exact a.isBlock_steps.append (a.isBlock_called.append (.of_onlyOf a.onlyOf_tail))

end Assembly

lemma isBlock_of_compile {d : Descriptor} {w : Wrapper} (h : d.compile = .ok w) :
    IsBlock w.body := by
  obtain ⟨a, rfl⟩ := Descriptor.exists_assembly h
  exact a.isBlock_body

lemma isBlock_of_compileDestructor {owner : Option BoundaryType} {exportName : Option String}
    {w : Wrapper} (h : compileDestructor owner exportName = .ok w) : IsBlock w.body := by
  rw [compileDestructor.eq_def] at h
  split at h
  · obtain ⟨mentions, -, h⟩ := bind_eq_ok.mp h
    obtain ⟨-, h⟩ := guard_eq_ok.mp h
    obtain ⟨-, h⟩ := bind_unit_eq_ok.mp h
    obtain ⟨text, -, h⟩ := bind_eq_ok.mp h
    rw [← pure_eq_ok.mp h]
    exact .of_onlyOf (.cons (by simp [Statement.kind, lineKinds])
      (.cons (by simp [Statement.kind, lineKinds]) .nil))
  · cases h

/-! ### Steps of a session -/

/-- Writing what was compiled. -/
lemma exists_emitWrapper {w : Wrapper} {block : List String} (h : WrittenAs w block)
    (s : Session) : ∃ e, Session.emitWrapper (.ok w) s =
        .ok w.plan.length { s with emitter := e } ∧
      e.lines = s.emitter.lines ++ s.emitter.placed block ∧ e.frames = s.emitter.frames := by
  obtain ⟨e, hrun, hlines, hframes⟩ := h.anywhere s.emitter
  refine ⟨e, ?_, hlines, hframes⟩
  change EStateM.bind (Session.emission w.emit) _ s = _
  rw [EStateM.bind, Session.emission, hrun]
  rfl

/-- A step that writes what was compiled, and makes a reply of the number of statements. -/
lemma writesWhole_of_eq {operation : Operation} {compiled : Except DescriptorFault Wrapper}
    (reply : Nat → Reply)
    (heq : Session.perform operation = (reply <$> Session.emitWrapper compiled))
    (hblock : ∀ w, compiled = .ok w → IsBlock w.body) : WritesWhole operation compiled where
  rejected := by
    rintro fault rfl s
    rw [heq]
    rfl
  accepted := by
    rintro w rfl
    obtain ⟨lines, hlines⟩ := hblock w rfl
    refine ⟨w.block lines, writtenAs_of_appends hlines, fun s => ?_⟩
    obtain ⟨e, hrun, hadded, hframes⟩ := exists_emitWrapper (writtenAs_of_appends hlines) s
    refine ⟨reply w.plan.length, { s with emitter := e }, ?_, hadded, hframes, rfl, rfl⟩
    rw [heq]
    change EStateM.map reply (Session.emitWrapper (.ok w)) s = _
    rw [EStateM.map, hrun]

/-- **All or nothing, wherever it is written.** A step that writes the wrapper of a descriptor or of
a destructor either fails, and the session is as it was, or it adds the lines of the wrapper, which
are the same whatever the scopes that are open around it. -/
theorem perform_writesWhole :
    (∀ d : Descriptor, WritesWhole (.marshal d) d.compile) ∧
      ∀ owner exportName, WritesWhole (.destructor owner exportName)
        (compileDestructor owner exportName) := by
  constructor
  · intro d
    exact writesWhole_of_eq .count rfl fun w hw => isBlock_of_compile hw
  · intro owner exportName
    exact writesWhole_of_eq (fun _ => .nothing) rfl fun w hw => isBlock_of_compileDestructor hw

end AbiBridge
