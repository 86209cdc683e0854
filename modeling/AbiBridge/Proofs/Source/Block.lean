import AbiBridge.Proofs.Outcome
import AbiBridge.Source.Replay

/-!
Blocks of lines.

What a plan writes depends on the emitter it is written into only through the level of the lines.
`Appends x block` says that `x` puts the lines of `block` below those that are there, each at the
level of the emitter, and leaves the open scopes as they were.

* `Emitter.indented`: a line at a level;
* `Yields`: what an operation does to one emitter, and its composition;
* `Arms`, `appends_match`: a match whose arms are the declared ones is a block;
* `yields_wrapper`: a wrapper whose body is a block is one itself, wherever it is written.
-/

namespace AbiBridge

/-! ### Levels -/

namespace Emitter

/-- A line at a level, four blanks for each; an empty one stays empty. -/
def indented (level : Nat) (line : String) : String :=
  if line = "" then "" else String.ofList (List.replicate (4 * level) ' ') ++ line

lemma indentation_eq (level : Nat) :
    indentation level = String.ofList (List.replicate (4 * level) ' ') := by
  induction level with
  | zero => rfl
  | succ level ih =>
      have hunit : indentUnit = String.ofList (List.replicate 4 ' ') := rfl
      rw [indentation, ih, hunit, ← String.ofList_append, List.replicate_append_replicate]
      congr 2
      omega

lemma indented_zero (line : String) : indented 0 line = line := by
  rw [indented]
  split
  · exact (‹line = ""›).symm
  · exact String.empty_append

/-- Levels add up. -/
lemma indented_indented (m n : Nat) (line : String) :
    indented m (indented n line) = indented (m + n) line := by
  by_cases hline : line = ""
  · simp only [indented, if_pos hline, if_true]
  · have hne : String.ofList (List.replicate (4 * n) ' ') ++ line ≠ "" := by
      rw [Ne, String.append_eq_empty_iff]
      exact fun h => hline h.2
    simp only [indented, if_neg hline, if_neg hne]
    rw [← String.append_assoc, ← String.ofList_append, List.replicate_append_replicate,
      Nat.mul_add]

lemma map_indented_zero (block : List String) : block.map (indented 0) = block :=
  (List.map_congr_left fun line _ => indented_zero line).trans (List.map_id' block)

lemma map_indented_map_indented (m n : Nat) (block : List String) :
    (block.map (indented n)).map (indented m) = block.map (indented (m + n)) := by
  rw [List.map_map]
  exact List.map_congr_left fun line _ => indented_indented m n line

lemma write_eq (e : Emitter) (text : String) :
    e.write text = { e with lines := e.lines ++ [indented e.depth text] } := by
  rw [write, indented, indentation_eq]

/-- Lines written one after the other. -/
lemma foldl_write (texts : List String) (e : Emitter) :
    texts.foldl write e = { e with lines := e.lines ++ texts.map (indented e.depth) } := by
  induction texts generalizing e with
  | nil => rw [List.foldl_nil, List.map_nil, List.append_nil]
  | cons text texts ih =>
      rw [List.foldl_cons, ih, write_eq, List.map_cons]
      simp only [List.append_assoc, List.cons_append, List.nil_append]
      rfl

/-- The line feeds at the end of the lines are left out, and one is put behind what is left. -/
lemma source_eq_of_text {e : Emitter} {text : String} {c : Char} (n : Nat)
    (hlast : text.toList.getLast? = some c) (hc : c ≠ '\n')
    (h : "\n".intercalate e.lines = text ++ String.ofList (List.replicate n '\n')) :
    e.source = text ++ "\n" := by
  obtain ⟨front, hfront⟩ := List.getLast?_eq_some_iff.mp hlast
  have hfeeds : ∀ d ∈ List.replicate n '\n', (decide (d = '\n')) = true :=
    fun d hd => decide_eq_true (List.eq_of_mem_replicate hd)
  have hbody : (("\n".intercalate e.lines).toList.reverse.dropWhile (· = '\n')).reverse =
      text.toList := by
    rw [h, String.toList_append, String.toList_ofList, List.reverse_append, List.reverse_replicate,
      List.dropWhile_append_of_pos hfeeds, hfront, List.reverse_append, List.reverse_singleton,
      List.singleton_append, List.dropWhile_cons_of_neg (by simp [hc]), List.reverse_cons,
      List.reverse_reverse]
  rw [source, hbody, if_neg (by simp [hfront]), String.ofList_toList]

/-- Lines that end in a brace, and an empty one behind them. -/
lemma source_eq {e : Emitter} {front : List String}
    (h : e.lines = (front ++ ["\x7d"]) ++ [""]) :
    e.source = "\n".intercalate (front ++ ["\x7d"]) ++ "\n" := by
  have hlast : ("\n".intercalate (front ++ ["\x7d"])).toList.getLast? = some '\x7d' := by
    by_cases hfront : front = []
    · rw [hfront]
      rfl
    · rw [String.intercalate_append_of_ne_nil hfront (List.cons_ne_nil _ _),
        String.intercalate_singleton, String.toList_append, List.getLast?_append]
      rfl
  refine source_eq_of_text 1 hlast (by decide) ?_
  rw [h, String.intercalate_append_of_ne_nil (by simp) (List.cons_ne_nil _ _),
    String.intercalate_singleton, String.append_empty]
  rfl

/-- The level inside of the given scopes, the innermost first. -/
def levelOf (frames : List Frame) : Nat := { frames := frames : Emitter }.depth

lemma depth_eq (e : Emitter) : e.depth = levelOf e.frames := rfl

lemma levelOf_cons (frame : Frame) (outer : List Frame) :
    levelOf (frame :: outer) = frame.scope.levels + levelOf outer := rfl

end Emitter

open Emitter Outcome

/-! ### What an operation writes -/

/-- Run in `e`, the operation puts `lines` below those that are there, and leaves `frames` open. -/
def Yields (x : Emission Unit) (e : Emitter) (lines : List String) (frames : List Frame) : Prop :=
  ∃ e', x e = .ok () e' ∧ e'.lines = e.lines ++ lines ∧ e'.frames = frames

namespace Yields

variable {x y : Emission Unit} {e : Emitter} {lines lines' : List String}
  {frames frames' : List Frame}

lemma bind (hx : Yields x e lines frames)
    (hy : ∀ e', e'.frames = frames → Yields y e' lines' frames') :
    Yields (x >>= fun _ => y) e (lines ++ lines') frames' := by
  obtain ⟨e₁, hrun₁, hlines₁, hframes₁⟩ := hx
  obtain ⟨e₂, hrun₂, hlines₂, hframes₂⟩ := hy e₁ hframes₁
  refine ⟨e₂, ?_, ?_, hframes₂⟩
  · rw [run_bind hrun₁, hrun₂]
  · rw [hlines₂, hlines₁, List.append_assoc]

/-- A first step that writes nothing. -/
lemma after {α : Type} {x : Emission α} {f : α → Emission Unit} {a : α} {opened : List Frame}
    (hx : x e = .ok a { e with frames := opened })
    (hf : Yields (f a) { e with frames := opened } lines frames) :
    Yields (x >>= f) e lines frames := by
  obtain ⟨e', hrun, hlines, hframes⟩ := hf
  exact ⟨e', by rw [run_bind hx, hrun], hlines, hframes⟩

lemma pure (e : Emitter) : Yields (Pure.pure ()) e [] e.frames :=
  ⟨e, rfl, (List.append_nil _).symm, rfl⟩

lemma line (text : String) (e : Emitter) :
    Yields (Emission.line text) e [indented e.depth text] e.frames := by
  refine ⟨e.write text, rfl, ?_, ?_⟩ <;> rw [write_eq]

end Yields

/-- Wherever a scope is open, the operation puts the lines of `block` below those that are there, at
the level of the emitter, and leaves the open scopes as they were. -/
def Appends (x : Emission Unit) (block : List String) : Prop :=
  ∀ e : Emitter, e.frames ≠ [] → Yields x e (block.map (indented e.depth)) e.frames

namespace Appends

variable {x y : Emission Unit} {block block' : List String}

lemma pure : Appends (Pure.pure ()) [] := fun e _ => Yields.pure e

lemma line (text : String) : Appends (Emission.line text) [text] := fun e _ => Yields.line text e

lemma bind (hx : Appends x block) (hy : Appends y block') :
    Appends (x >>= fun _ => y) (block ++ block') := by
  intro e he
  rw [List.map_append]
  refine (hx e he).bind fun e' hframes => ?_
  rw [depth_eq, ← hframes, ← depth_eq]
  exact hy e' (hframes ▸ he)

end Appends

/-! ### Lists of statements -/

namespace Statement

/-- The line that a statement is written as, if it is written as one. -/
def text? : Statement → Option String
  | .bind name value isMutable typeName unchecked =>
      some (bindingText name value isMutable typeName unchecked)
  | .storeOut pointer value => some (storeText pointer value)
  | .line text => some text
  | .call expression binding => some (callText expression binding false)
  | .reclaim name native isMutable consume => some (reclaimText name native isMutable consume)
  | .release name => some (releaseText name)
  | .openFunction _ | .openMatch .. | .closeScope | .arm _ | .armBlock _ => none

lemma appends_emit {s : Statement} {text : String} (h : s.text? = some text) :
    Appends s.emit [text] := by
  cases s <;> cases h <;> rw [emit] <;> exact Appends.line _

lemma appends_emitAll_nil : Appends (emitAll []) [] := by
  rw [emitAll]
  exact Appends.pure

lemma appends_emitAll_cons {s : Statement} {ss : List Statement} {block block' : List String}
    (hs : Appends s.emit block) (hss : Appends (emitAll ss) block') :
    Appends (emitAll (s :: ss)) (block ++ block') := by
  rw [emitAll]
  exact hs.bind hss

lemma emitAll_singleton (s : Statement) : emitAll [s] = emit s := by
  rw [emitAll, emitAll]
  exact bind_pure_unit

/-- Statements in two runs. -/
lemma emitAll_append (ss ss' : List Statement) :
    emitAll (ss ++ ss') = emitAll ss >>= fun _ => emitAll ss' := by
  induction ss with
  | nil => rw [List.nil_append, emitAll]; rfl
  | cons s ss ih =>
      rw [List.cons_append, emitAll, ih, emitAll, bind_assoc]

lemma appends_emitAll_append {ss ss' : List Statement} {block block' : List String}
    (hss : Appends (emitAll ss) block) (hss' : Appends (emitAll ss') block') :
    Appends (emitAll (ss ++ ss')) (block ++ block') := by
  rw [emitAll_append]
  exact hss.bind hss'

/-- Statements that are a line each. -/
lemma appends_emitAll_of_text {ss : List Statement} {texts : List String}
    (h : List.Forall₂ (fun s text => s.text? = some text) ss texts) :
    Appends (emitAll ss) texts := by
  induction h with
  | nil => exact appends_emitAll_nil
  | cons hs _ ih => exact appends_emitAll_cons (appends_emit hs) ih

end Statement

/-! ### Matches -/

/-- The statements are arms for the patterns, and are written as the lines. -/
inductive Arms : List String → List Statement → List String → Prop where
  | nil : Arms [] [] []
  | arm {patterns arms lines} (pattern body : String) : Arms patterns arms lines →
      Arms (pattern :: patterns) (.arm body :: arms) ((pattern ++ " => " ++ body ++ ",") :: lines)
  | block {patterns arms lines body block} (pattern : String) :
      Appends (Statement.emitAll body) block → Arms patterns arms lines →
      Arms (pattern :: patterns) (.armBlock body :: arms)
        ((pattern ++ " => \x7b") :: (block.map (indented 1) ++ "\x7d" :: lines))

section Match

variable {m : MatchScope} {e : Emitter} {serial : Nat} {outer : List Frame}

lemma currentMatch_eq (hframes : e.frames = ⟨serial, .arms m⟩ :: outer) :
    Emission.currentMatch e = .ok m e := by
  have htop : e.top? = some (.arms m) := by
    rw [top?, hframes]
    rfl
  rw [Emission.currentMatch, run_bind (run_get e), htop]
  rfl

lemma modify_setTop (hframes : e.frames = ⟨serial, .arms m⟩ :: outer) (scope : Scope) :
    (modify (·.setTop scope) : Emission Unit) e =
      .ok () { e with frames := ⟨serial, scope⟩ :: outer } := by
  change EStateM.Result.ok () (e.setTop scope) = _
  rw [setTop, hframes]

/-- Between two arms, the next pattern is to be had. -/
lemma nextPattern_eq {pattern : String} (hframes : e.frames = ⟨serial, .arms m⟩ :: outer)
    (hblock : m.inBlock = false) (hpattern : m.patterns[m.emitted]? = some pattern) :
    Emission.nextPattern e = .ok pattern { e with
      frames := ⟨serial, .arms { m with emitted := m.emitted + 1 }⟩ :: outer } := by
  rw [Emission.nextPattern, run_bind (currentMatch_eq hframes)]
  dsimp only
  rw [if_neg (by rw [hblock]; decide), hpattern]
  dsimp only
  rw [run_bind (modify_setTop hframes _)]
  rfl

/-- Between two arms, lines are one level in. -/
lemma yields_line (text : String) (hframes : e.frames = ⟨serial, .arms m⟩ :: outer)
    (hblock : m.inBlock = false) :
    Yields (Emission.line text) e [indented (levelOf outer + 1) text]
      (⟨serial, .arms m⟩ :: outer) := by
  have hlevel : e.depth = levelOf outer + 1 := by
    rw [depth_eq, hframes, levelOf_cons, Scope.levels, hblock, Nat.add_comm]
    rfl
  rw [← hframes, ← hlevel]
  exact Yields.line text e

/-- Between two arms, the next one is a line. -/
lemma yields_arm {pattern : String} (body : String)
    (hframes : e.frames = ⟨serial, .arms m⟩ :: outer) (hblock : m.inBlock = false)
    (hpattern : m.patterns[m.emitted]? = some pattern) :
    Yields (Emission.arm body) e [indented (levelOf outer + 1) (pattern ++ " => " ++ body ++ ",")]
      (⟨serial, .arms { m with emitted := m.emitted + 1 }⟩ :: outer) := by
  rw [Emission.arm]
  exact .after (nextPattern_eq hframes hblock hpattern) (yields_line _ rfl hblock)

lemma yields_beginArm {pattern : String} (hframes : e.frames = ⟨serial, .arms m⟩ :: outer)
    (hblock : m.inBlock = false) (hpattern : m.patterns[m.emitted]? = some pattern) :
    Yields Emission.beginArm e [indented (levelOf outer + 1) (pattern ++ " => \x7b")]
      (⟨serial, .arms { m with emitted := m.emitted + 1, inBlock := true }⟩ :: outer) := by
  rw [Emission.beginArm]
  refine .after (nextPattern_eq hframes hblock hpattern) ?_
  rw [← List.append_nil [_]]
  have hline := yields_line (m := { m with emitted := m.emitted + 1 })
    (e := { e with frames := ⟨serial, .arms { m with emitted := m.emitted + 1 }⟩ :: outer })
    (pattern ++ " => \x7b") rfl hblock
  refine hline.bind fun e' hframes' => ?_
  refine .after (a := _) (currentMatch_eq hframes') ?_
  exact ⟨_, modify_setTop hframes' _, (List.append_nil _).symm, rfl⟩

lemma yields_endArm (hframes : e.frames = ⟨serial, .arms m⟩ :: outer)
    (hblock : m.inBlock = true) :
    Yields Emission.endArm e [indented (levelOf outer + 1) "\x7d"]
      (⟨serial, .arms { m with inBlock := false }⟩ :: outer) := by
  rw [Emission.endArm]
  obtain ⟨e', hrun, hlines, hframes'⟩ := yields_line (e := { e with
    frames := ⟨serial, .arms { m with inBlock := false }⟩ :: outer }) "\x7d" rfl rfl
  refine ⟨e', ?_, hlines, hframes'⟩
  rw [run_bind (currentMatch_eq hframes)]
  dsimp only
  rw [if_neg (by rw [hblock]; decide), run_bind (modify_setTop hframes _), hrun]

/-- Between two arms, the next one is a block. -/
lemma yields_armBlock {pattern : String} {body : List Statement} {block : List String}
    (hbody : Appends (Statement.emitAll body) block)
    (hframes : e.frames = ⟨serial, .arms m⟩ :: outer) (hblock : m.inBlock = false)
    (hpattern : m.patterns[m.emitted]? = some pattern) :
    Yields (Statement.emit (.armBlock body)) e
      (((pattern ++ " => \x7b") :: (block.map (indented 1) ++ ["\x7d"])).map
        (indented (levelOf outer + 1)))
      (⟨serial, .arms { m with emitted := m.emitted + 1 }⟩ :: outer) := by
  rw [Statement.emit, List.map_cons, List.map_append, map_indented_map_indented]
  refine (yields_beginArm hframes hblock hpattern).bind fun e₁ hframes₁ => ?_
  have hlevel : e₁.depth = levelOf outer + 1 + 1 := by
    rw [depth_eq, hframes₁, levelOf_cons, Nat.add_comm]
    rfl
  rw [← hlevel]
  refine (hbody e₁ (by rw [hframes₁]; exact List.cons_ne_nil _ _)).bind fun e₂ hframes₂ => ?_
  have hend := yields_endArm (hframes₂.trans hframes₁) rfl
  rwa [← hblock] at hend

/-- The next of the remaining patterns, and those that remain behind it. -/
lemma next_of_drop {all patterns : List String} {n : Nat} {pattern : String}
    (h : all.drop n = pattern :: patterns) : all[n]? = some pattern ∧
      all.drop (n + 1) = patterns ∧ n + (pattern :: patterns).length = n + 1 + patterns.length := by
  refine ⟨?_, ?_, ?_⟩
  · rw [← List.head?_drop, h]
    rfl
  · rw [← List.drop_drop, h]
    rfl
  · rw [List.length_cons, Nat.add_comm _ 1, ← Nat.add_assoc]

/-- From one arm on, the arms of the remaining patterns are written one level in. -/
lemma yields_arms {patterns : List String} {arms : List Statement} {lines : List String}
    (h : Arms patterns arms lines) (hframes : e.frames = ⟨serial, .arms m⟩ :: outer)
    (hblock : m.inBlock = false) (hpatterns : m.patterns.drop m.emitted = patterns) :
    Yields (Statement.emitAll arms) e (lines.map (indented (levelOf outer + 1)))
      (⟨serial, .arms { m with emitted := m.emitted + patterns.length }⟩ :: outer) := by
  -- along the patterns, where the scope counts the arms that were written
  induction h generalizing e m with
  | nil =>
      rw [Statement.emitAll]
      have hnone := Yields.pure e
      rwa [hframes] at hnone
  | @arm patterns arms lines pattern body _ ih =>
      obtain ⟨hpattern, hrest, hcount⟩ := next_of_drop hpatterns
      rw [Statement.emitAll, Statement.emit, List.map_cons, hcount]
      exact (yields_arm body hframes hblock hpattern).bind fun e' hframes' =>
        ih hframes' hblock hrest
  | @block patterns arms lines body block pattern hbody _ ih =>
      obtain ⟨hpattern, hrest, hcount⟩ := next_of_drop hpatterns
      rw [Statement.emitAll, ← List.singleton_append (l := lines), ← List.append_assoc,
        ← List.cons_append, List.map_append, hcount]
      exact (yields_armBlock hbody hframes hblock hpattern).bind fun e' hframes' =>
        ih hframes' hblock hrest

end Match

/-! ### Scopes as a whole -/

/-- Opening a scope writes its header. -/
lemma openScope_eq {e : Emitter} {scope : Scope} (h : scope.kind = .arms → e.frames ≠ []) :
    Emission.openScope scope e = .ok ⟨e.opened, false⟩
      ⟨e.lines ++ scope.header.map (indented e.depth), ⟨e.opened, scope⟩ :: e.frames,
        e.opened + 1⟩ := by
  rw [Emission.openScope, run_bind (run_get e), foldl_write]
  cases scope with
  | function signature => rfl
  | arms m =>
      have hopen : ¬e.frames.isEmpty = true := by
        rw [List.isEmpty_iff]
        exact h rfl
      dsimp only
      rw [if_neg hopen]
      rfl

lemma yields_openScope {e : Emitter} {scope : Scope} (h : scope.kind = .arms → e.frames ≠ []) :
    Yields (discard (Emission.openScope scope)) e (scope.header.map (indented e.depth))
      (⟨e.opened, scope⟩ :: e.frames) := by
  refine ⟨⟨e.lines ++ scope.header.map (indented e.depth), ⟨e.opened, scope⟩ :: e.frames,
    e.opened + 1⟩, ?_, rfl, rfl⟩
  change EStateM.map _ (Emission.openScope scope) e = _
  rw [EStateM.map, openScope_eq h]

/-- Closing a scope writes what is due and its trailer, and a blank line behind a function that
was in no other scope. -/
lemma closeScope_eq {e : Emitter} {frame : Frame} {outer : List Frame} {last : List String}
    (hframes : e.frames = frame :: outer) (hlast : Emission.closing frame.scope = .ok last) :
    Emission.closeScope e = .ok ()
      ⟨e.lines ++ (last.map (indented e.depth) ++ indented (levelOf outer) frame.scope.trailer ::
        if outer = [] ∧ frame.scope.kind = .function then [""] else []), outer, e.opened⟩ := by
  rw [Emission.closeScope, run_bind (run_get e)]
  dsimp only
  rw [hframes]
  dsimp only
  rw [hlast]
  dsimp only
  rw [foldl_write, write_eq, write_eq]
  have hif : (outer.isEmpty && frame.scope.kind == .function) = true ↔
      outer = [] ∧ frame.scope.kind = .function := by
    rw [Bool.and_eq_true, List.isEmpty_iff, beq_iff_eq]
  by_cases hblank : outer = [] ∧ frame.scope.kind = .function
  · rw [if_pos (hif.mpr hblank), if_pos hblank]
    simp only [List.append_assoc, List.cons_append, List.nil_append]
    rfl
  · rw [if_neg (mt hif.mp hblank), if_neg hblank, List.append_assoc]
    rfl

lemma yields_closeScope {e : Emitter} {frame : Frame} {outer : List Frame} {last : List String}
    (hframes : e.frames = frame :: outer) (hlast : Emission.closing frame.scope = .ok last) :
    Yields Emission.closeScope e
      (last.map (indented e.depth) ++ indented (levelOf outer) frame.scope.trailer ::
        if outer = [] ∧ frame.scope.kind = .function then [""] else []) outer :=
  ⟨_, closeScope_eq hframes hlast, rfl, rfl⟩

/-- A match with an arm for each of its patterns is a block. -/
lemma appends_match {scrutinee : String} {patterns : List String} {binding : Option String}
    {arms : List Statement} {lines : List String} (h : Arms patterns arms lines) :
    Appends (Statement.emitAll (.openMatch scrutinee patterns binding :: arms ++ [.closeScope]))
      (MatchScope.header ⟨scrutinee, patterns, binding, 0, false⟩ ::
        (lines.map (indented 1) ++
          [MatchScope.trailer ⟨scrutinee, patterns, binding, 0, false⟩])) := by
  intro e he
  rw [List.cons_append, Statement.emitAll, Statement.emit, Statement.emitAll_append, List.map_cons,
    List.map_append, map_indented_map_indented]
  refine (yields_openScope fun _ => he).bind fun e₁ hframes₁ => ?_
  refine (yields_arms h hframes₁ rfl rfl).bind fun e₂ hframes₂ => ?_
  -- as many arms were written as there are patterns, so the scope may be closed
  rw [Statement.emitAll_singleton, Statement.emit]
  have hclosing : Emission.closing (.arms ⟨scrutinee, patterns, binding, 0 + patterns.length,
      false⟩) = .ok [] := by
    rw [Emission.closing, if_neg Bool.false_ne_true, if_neg (by simp)]
    rfl
  have hclose := yields_closeScope hframes₂ hclosing
  rw [if_neg (fun hfun => nomatch hfun.2)] at hclose
  exact hclose

/-- The lines of a wrapper whose body has the given ones. -/
def Wrapper.block (w : Wrapper) (lines : List String) : List String :=
  w.signature.header ++
    ((lines ++ if w.signature.fallible then [successSentinel] else []).map (indented 1) ++ ["\x7d"])

/-- A wrapper whose body is a block is one itself, with a blank line behind it if it is in no other
scope. -/
lemma yields_wrapper {w : Wrapper} {lines : List String}
    (h : Appends (Statement.emitAll w.body) lines) (e : Emitter) :
    Yields w.emit e
      ((w.block lines).map (indented e.depth) ++ if e.frames = [] then [""] else []) e.frames := by
  rw [Wrapper.emit, Wrapper.plan, Wrapper.block, List.cons_append, Statement.emitAll,
    Statement.emit, Statement.emitAll_append, List.map_append, List.append_assoc]
  have hopen : (Scope.function w.signature).kind = .arms → e.frames ≠ [] := fun h => nomatch h
  refine (yields_openScope hopen).bind fun e₁ hframes₁ => ?_
  have hlevel : e₁.depth = e.depth + 1 := by
    rw [depth_eq, hframes₁, levelOf_cons, Nat.add_comm]
    rfl
  -- the function is a scope by itself, so the body is a block wherever the function is
  have hbody := h e₁ (by rw [hframes₁]; exact List.cons_ne_nil _ _)
  rw [List.map_append, map_indented_map_indented, ← hlevel, List.map_append, List.append_assoc,
    List.append_assoc]
  refine hbody.bind fun e₂ hframes₂ => ?_
  rw [Statement.emitAll_singleton, Statement.emit]
  have hclose := yields_closeScope (hframes₂.trans hframes₁) rfl
  rw [depth_eq, hframes₂, ← depth_eq] at hclose
  have hblank : (e.frames = [] ∧ (Scope.function w.signature).kind = .function) = (e.frames = []) :=
    propext (and_iff_left rfl)
  simp only [hblank] at hclose
  exact hclose

end AbiBridge
