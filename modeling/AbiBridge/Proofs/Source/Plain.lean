import AbiBridge.Proofs.Source.Block

/-!
Plain lines.

A text is plain if it consists of printable ASCII characters, so that it has no line break.

* `PlainText`: appended and joined texts are plain if their pieces are;
* `Statement.IsPlain`: what is spliced into a statement is plain;
* `Statement.keeps_emitAll`: plain statements are written as plain lines, in any emitter whose
  lines and patterns are plain.
-/

namespace AbiBridge

open Emitter Outcome

/-! ### Plain texts -/

/-- A text of printable ASCII characters. -/
def PlainText (s : String) : Prop := ∀ c ∈ s.toList, ' ' ≤ c ∧ c ≤ '~'

instance (s : String) : Decidable (PlainText s) :=
  List.decidableBAll (fun c => ' ' ≤ c ∧ c ≤ '~') s.toList

namespace PlainText

variable {s t : String} {l : List String}

/-- There is no line break in a plain text. -/
lemma newline_notMem (h : PlainText s) : '\n' ∉ s.toList := by
  intro hmem
  exact absurd (h '\n' hmem).1 (by decide)

lemma append (hs : PlainText s) (ht : PlainText t) : PlainText (s ++ t) := by
  intro c hc
  rw [String.toList_append] at hc
  exact (List.mem_append.mp hc).elim (hs c) (ht c)

/-- A plain text with a fixed one in front of it. -/
lemma preceded {front : String} (h : PlainText s) (hfront : PlainText front := by decide) :
    PlainText (front ++ s) :=
  hfront.append h

/-- A plain text with a fixed one behind it. -/
lemma followed {back : String} (h : PlainText s) (hback : PlainText back := by decide) :
    PlainText (s ++ back) :=
  h.append hback

lemma join (h : ∀ s ∈ l, PlainText s) : PlainText (String.join l) := by
  intro c hc
  rw [String.toList_join] at hc
  obtain ⟨s, hs, hc⟩ := List.mem_flatMap.mp hc
  exact h s hs c hc

lemma intercalate (hs : PlainText s) (h : ∀ t ∈ l, PlainText t) : PlainText (s.intercalate l) := by
  induction l with
  | nil => exact fun c hc => absurd hc List.not_mem_nil
  | cons t l ih =>
      obtain ⟨ht, hl⟩ := List.forall_mem_cons.mp h
      cases l with
      | nil =>
          rw [String.intercalate_singleton]
          exact ht
      | cons u l =>
          rw [String.intercalate_cons_cons]
          exact (ht.append hs).append (ih hl)

lemma indentation (level : Nat) : PlainText (indentation level) := by
  rw [indentation_eq]
  intro c hc
  rw [String.toList_ofList] at hc
  rw [List.eq_of_mem_replicate hc]
  decide

end PlainText

lemma plainText_opaquePointer : PlainText opaquePointer := by decide

/-! ### The texts of statements -/

section Texts

variable {name value nativeText : String} {isMutable unchecked consume : Bool}

lemma plainText_bindingText {typeName : Option String} (hname : PlainText name)
    (hvalue : PlainText value) (htype : ∀ t ∈ typeName, PlainText t) :
    PlainText (bindingText name value isMutable typeName unchecked) := by
  have hmutability : PlainText (if isMutable then "mut " else "") := by cases isMutable <;> decide
  have hchecked : PlainText
      (if unchecked then String.join ["unsafe \x7b ", value, " \x7d"] else value) := by
    split
    · refine .join ?_
      simp only [List.forall_mem_cons]
      exact ⟨by decide, hvalue, by decide, fun _ h => absurd h List.not_mem_nil⟩
    · exact hvalue
  refine .join ?_
  simp only [List.forall_mem_cons]
  refine ⟨by decide, hmutability, hname, ?_, by decide, hchecked, by decide,
    fun _ h => absurd h List.not_mem_nil⟩
  cases typeName with
  | none => decide
  | some t =>
      dsimp only
      split
      · decide
      · exact (htype t rfl).preceded

lemma plainText_storeText (hname : PlainText name) (hvalue : PlainText value) :
    PlainText (storeText name value) := by
  refine .join ?_
  simp only [List.forall_mem_cons]
  exact ⟨by decide, hname, by decide, hvalue, by decide, fun _ h => absurd h List.not_mem_nil⟩

lemma plainText_callText {binding : Option String} (hvalue : PlainText value)
    (hbinding : ∀ name ∈ binding, PlainText name) :
    PlainText (callText value binding isMutable) := by
  cases binding with
  | none => exact hvalue.followed
  | some name =>
      rw [callText]
      split
      · exact hvalue.followed
      · exact plainText_bindingText (hbinding name rfl) hvalue fun _ h => (nomatch h)

lemma plainText_reclaimText (hname : PlainText name) (hnative : PlainText nativeText) :
    PlainText (reclaimText name nativeText isMutable consume) := by
  have hmoved : PlainText (if consume then "*" else "") := by cases consume <;> decide
  rw [reclaimText]
  refine plainText_bindingText hname (.join ?_) fun _ h => (nomatch h)
  simp only [List.forall_mem_cons]
  exact ⟨hmoved, by decide, hname, by decide, hnative, by decide,
    fun _ h => absurd h List.not_mem_nil⟩

lemma plainText_releaseText (hname : PlainText name) : PlainText (releaseText name) := by
  refine .join ?_
  simp only [List.forall_mem_cons]
  exact ⟨by decide, hname, by decide, fun _ h => absurd h List.not_mem_nil⟩

end Texts

/-! ### Plain statements -/

/-- Everything that a signature shows is plain. -/
structure Signature.IsPlain (s : Signature) : Prop where
  name : PlainText s.name
  params : ∀ p ∈ s.params, PlainText p.render
  result : ∀ text ∈ s.result, PlainText text

/-- Everything that is spliced into a statement is plain. -/
inductive Statement.IsPlain : Statement → Prop where
  | openFunction {signature : Signature} (plain : signature.IsPlain) :
      IsPlain (.openFunction signature)
  | openMatch {scrutinee : String} {patterns : List String} {binding : Option String}
      (scrutinee_plain : PlainText scrutinee)
      (patterns_plain : ∀ p ∈ patterns, PlainText p)
      (binding_plain : ∀ name ∈ binding, PlainText name) :
      IsPlain (.openMatch scrutinee patterns binding)
  | closeScope : IsPlain .closeScope
  | arm {body : String} (plain : PlainText body) : IsPlain (.arm body)
  | armBlock {body : List Statement} (plain : ∀ s ∈ body, IsPlain s) : IsPlain (.armBlock body)
  | text {s : Statement} {text : String} (written : s.text? = some text)
      (plain : PlainText text) : IsPlain s

namespace Signature.IsPlain

variable {s : Signature}

/-- The lines that open a function are plain. -/
lemma header (h : s.IsPlain) : ∀ line ∈ s.header, PlainText line := by
  have harrow : PlainText (arrow s.result) := by
    cases hresult : s.result with
    | none => exact fun c hc => absurd hc List.not_mem_nil
    | some text =>
        rw [arrow]
        split
        · exact fun c hc => absurd hc List.not_mem_nil
        · exact (h.result text hresult).preceded
  have hparams : PlainText s.paramsText := by
    refine .intercalate (by decide) fun text htext => ?_
    obtain ⟨p, hp, rfl⟩ := List.mem_map.mp htext
    exact h.params p hp
  have hrest : PlainText (s.name ++ "(" ++ s.paramsText ++ ")" ++ arrow s.result ++ " \x7b") :=
    ((h.name.followed.append hparams).followed.append harrow).followed
  intro line hline
  rw [Signature.header] at hline
  split at hline
  · rcases List.mem_cons.mp hline with rfl | hline
    · decide
    · rw [List.mem_singleton.mp hline]
      exact hrest.preceded
  · rw [List.mem_singleton.mp hline]
    exact hrest.preceded

end Signature.IsPlain

/-! ### Plain emitters -/

/-- The patterns that a scope has yet to write are plain. -/
def Scope.IsPlain : Scope → Prop
  | .function _ => True
  | .arms m => ∀ p ∈ m.patterns, PlainText p

/-- The lines of an emitter are plain, and so are the patterns of the matches that are open. -/
structure Emitter.IsPlain (e : Emitter) : Prop where
  lines : ∀ line ∈ e.lines, PlainText line
  frames : ∀ f ∈ e.frames, f.scope.IsPlain

namespace Emitter.IsPlain

variable {e : Emitter}

lemma write (h : e.IsPlain) {text : String} (htext : PlainText text) :
    (e.write text).IsPlain where
  lines := by
    intro line hline
    rcases List.mem_append.mp hline with hline | hline
    · exact h.lines line hline
    · rw [List.mem_singleton.mp hline]
      split
      · exact fun c hc => absurd hc List.not_mem_nil
      · exact (PlainText.indentation _).append htext
  frames := h.frames

lemma foldl_write (h : e.IsPlain) {texts : List String}
    (htexts : ∀ text ∈ texts, PlainText text) :
    (texts.foldl Emitter.write e).IsPlain := by
  induction texts generalizing e with
  | nil => exact h
  | cons text texts ih =>
      obtain ⟨htext, htexts⟩ := List.forall_mem_cons.mp htexts
      exact ih (h.write htext) htexts

lemma setTop (h : e.IsPlain) {scope : Scope} (hscope : scope.IsPlain) :
    (e.setTop scope).IsPlain := by
  rw [Emitter.setTop.eq_def]
  split
  · exact h
  · next f fs hframes =>
    have hfs := h.frames
    rw [hframes, List.forall_mem_cons] at hfs
    exact ⟨h.lines, List.forall_mem_cons.mpr ⟨hscope, hfs.2⟩⟩

end Emitter.IsPlain

/-! ### What is written -/

namespace Emission

lemma keeps_line {text : String} (h : PlainText text) : Keeps Emitter.IsPlain (line text) :=
  fun _ he => he.write h

lemma keeps_openScope {scope : Scope} (hheader : ∀ line ∈ scope.header, PlainText line)
    (hscope : scope.IsPlain) : Keeps Emitter.IsPlain (openScope scope) := by
  intro e he
  have hwritten := he.foldl_write hheader
  have hopened : Emitter.IsPlain { scope.header.foldl Emitter.write e with
      frames := ⟨(scope.header.foldl Emitter.write e).opened, scope⟩ ::
        (scope.header.foldl Emitter.write e).frames
      opened := (scope.header.foldl Emitter.write e).opened + 1 } :=
    ⟨hwritten.lines, List.forall_mem_cons.mpr ⟨hscope, hwritten.frames⟩⟩
  cases scope with
  | function signature => exact hopened
  | arms m =>
      rw [openScope, after_bind_of_ok (run_get e)]
      dsimp only
      split
      · exact he
      · exact hopened

lemma plainText_trailer (scope : Scope) : PlainText scope.trailer := by
  cases scope with
  | function signature =>
      rw [Scope.trailer]
      decide
  | arms m =>
      rw [Scope.trailer, MatchScope.trailer]
      split <;> decide

/-- What is written before a scope is closed is the sentinel of success. -/
lemma plainText_of_closing {scope : Scope} {last : List String} (h : closing scope = .ok last) :
    ∀ line ∈ last, PlainText line := by
  cases scope with
  | function signature =>
      rw [closing, pure_eq_ok] at h
      rw [← h]
      split
      · exact List.forall_mem_singleton.mpr (by decide)
      · exact fun _ hline => absurd hline List.not_mem_nil
  | arms m =>
      rw [closing, ite_throw_eq_ok, ite_throw_eq_ok, pure_eq_ok] at h
      rw [← h.2.2]
      exact fun _ hline => absurd hline List.not_mem_nil

lemma keeps_closeScope : Keeps Emitter.IsPlain closeScope := by
  intro e he
  rw [closeScope, after_bind_of_ok (run_get e)]
  cases hframes : e.frames with
  | nil => exact he
  | cons frame outer =>
      dsimp only
      cases hclosing : closing frame.scope with
      | error fault => exact he
      | ok last =>
          have houter : ∀ f ∈ outer, f.scope.IsPlain := by
            intro f hf
            exact he.frames f (hframes ▸ List.mem_cons_of_mem _ hf)
          have hlast := he.foldl_write (plainText_of_closing hclosing)
          have hclosed : Emitter.IsPlain { last.foldl Emitter.write e with frames := outer } :=
            ⟨hlast.lines, houter⟩
          have hwritten := hclosed.write (plainText_trailer frame.scope)
          have hempty := hwritten.write (by decide : PlainText "")
          change Emitter.IsPlain (if _ then _ else _)
          split
          · exact hempty
          · exact hwritten

/-- What is done with the innermost match. -/
lemma keeps_currentMatch_bind {α : Type} {f : MatchScope → Emission α}
    (hf : ∀ m, (Scope.arms m).IsPlain → Keeps Emitter.IsPlain (f m)) :
    Keeps Emitter.IsPlain (currentMatch >>= f) := by
  intro e he
  cases hframes : e.frames with
  | nil =>
      have htop : e.top? = none := by rw [top?, hframes]; rfl
      have hfail : currentMatch e = .error .notInMatch e := by
        rw [currentMatch, run_bind (run_get e), htop]
        rfl
      rw [after_bind_of_error hfail]
      exact he
  | cons frame outer =>
      obtain ⟨serial, scope⟩ := frame
      cases scope with
      | function signature =>
          have htop : e.top? = some (.function signature) := by rw [top?, hframes]; rfl
          have hfail : currentMatch e = .error .notInMatch e := by
            rw [currentMatch, run_bind (run_get e), htop]
            rfl
          rw [after_bind_of_error hfail]
          exact he
      | arms m =>
          rw [after_bind_of_ok (currentMatch_eq hframes)]
          exact hf m (he.frames _ (hframes ▸ List.mem_cons_self)) e he

/-- What is done with the next pattern. -/
lemma keeps_nextPattern_bind {α : Type} {f : String → Emission α}
    (hf : ∀ pattern, PlainText pattern → Keeps Emitter.IsPlain (f pattern)) :
    Keeps Emitter.IsPlain (nextPattern >>= f) := by
  rw [nextPattern, bind_assoc]
  refine keeps_currentMatch_bind fun m hm => ?_
  dsimp only
  by_cases hblock : m.inBlock = true
  · rw [if_pos hblock]
    exact fun _ he => he
  · rw [if_neg hblock]
    cases hpattern : m.patterns[m.emitted]? with
    | none => exact fun _ he => he
    | some pattern =>
        have hplain : PlainText pattern := hm pattern (List.mem_of_getElem? hpattern)
        have hset : Keeps Emitter.IsPlain
            (modify (·.setTop (.arms { m with emitted := m.emitted + 1 })) : Emission Unit) :=
          fun _ he => he.setTop hm
        exact hset.bind fun _ => hf pattern hplain

lemma keeps_arm {body : String} (h : PlainText body) : Keeps Emitter.IsPlain (arm body) := by
  refine keeps_nextPattern_bind fun pattern hpattern => keeps_line ?_
  exact (hpattern.followed.append h).followed

lemma keeps_beginArm : Keeps Emitter.IsPlain beginArm := by
  refine keeps_nextPattern_bind fun pattern hpattern => ?_
  refine (keeps_line hpattern.followed).bind fun _ => ?_
  exact keeps_currentMatch_bind fun m hm _ he => he.setTop hm

lemma keeps_endArm : Keeps Emitter.IsPlain endArm := by
  refine keeps_currentMatch_bind fun m hm => ?_
  dsimp only
  by_cases hblock : (!m.inBlock) = true
  · rw [if_pos hblock]
    exact fun _ he => he
  · rw [if_neg hblock]
    have hset : Keeps Emitter.IsPlain
        (modify (·.setTop (.arms { m with inBlock := false })) : Emission Unit) :=
      fun _ he => he.setTop hm
    exact hset.bind fun _ => keeps_line (by decide)

end Emission

/-- The line that opens a match. -/
lemma plainText_header (m : MatchScope) (hscrutinee : PlainText m.scrutinee)
    (hbinding : ∀ name ∈ m.binding, PlainText name) : PlainText m.header := by
  have hopening : PlainText ("match " ++ m.scrutinee ++ " \x7b") :=
    hscrutinee.preceded.followed
  cases hbound : m.binding with
  | none =>
      rw [MatchScope.header, hbound]
      exact hopening
  | some name =>
      have hname := hbinding name hbound
      rw [MatchScope.header, hbound]
      dsimp only
      split
      · exact hopening
      · exact (hname.preceded.followed.append hscrutinee).followed

namespace Statement

lemma keeps_emitAll_of_forall {ss : List Statement}
    (h : ∀ s ∈ ss, Keeps Emitter.IsPlain s.emit) : Keeps Emitter.IsPlain (emitAll ss) := by
  induction ss with
  | nil =>
      rw [emitAll]
      exact .pure ()
  | cons s ss ih =>
      obtain ⟨hs, hss⟩ := List.forall_mem_cons.mp h
      rw [emitAll]
      exact hs.bind fun _ => ih hss

/-- A statement that is a line. -/
lemma emit_eq_line {s : Statement} {text : String} (h : s.text? = some text) :
    s.emit = Emission.line text := by
  cases s <;> cases h <;> rw [emit]

/-- A plain statement is written as plain lines. -/
lemma IsPlain.keeps_emit {s : Statement} (h : s.IsPlain) : Keeps Emitter.IsPlain s.emit := by
  induction h with
  | @openFunction signature hsignature =>
      have hopen : Keeps Emitter.IsPlain (Emission.openScope (.function signature)) :=
        Emission.keeps_openScope hsignature.header trivial
      rw [emit]
      exact hopen.discard
  | @openMatch scrutinee patterns binding hscrutinee hpatterns hbinding =>
      have hheader := plainText_header ⟨scrutinee, patterns, binding, 0, false⟩ hscrutinee hbinding
      have hopen : Keeps Emitter.IsPlain
          (Emission.openScope (.arms ⟨scrutinee, patterns, binding, 0, false⟩)) :=
        Emission.keeps_openScope (List.forall_mem_singleton.mpr hheader) hpatterns
      rw [emit]
      exact hopen.discard
  | closeScope =>
      rw [emit]
      exact Emission.keeps_closeScope
  | arm hbody =>
      rw [emit]
      exact Emission.keeps_arm hbody
  | armBlock _ ih =>
      rw [emit]
      refine Emission.keeps_beginArm.bind fun _ => ?_
      exact (keeps_emitAll_of_forall ih).bind fun _ => Emission.keeps_endArm
  | text hwritten hplain =>
      rw [emit_eq_line hwritten]
      exact Emission.keeps_line hplain

/-- Plain statements are written as plain lines. -/
theorem keeps_emitAll {ss : List Statement} (h : ∀ s ∈ ss, s.IsPlain) :
    Keeps Emitter.IsPlain (emitAll ss) :=
  keeps_emitAll_of_forall fun s hs => (h s hs).keeps_emit

end Statement

end AbiBridge
