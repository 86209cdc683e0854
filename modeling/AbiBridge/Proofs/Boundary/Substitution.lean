import AbiBridge.Proofs.Boundary.Named
import AbiBridge.Proofs.Boundary.RoundTrip
import AbiBridge.Proofs.Boundary.Splicing

/-!
Writing the owner out and reading commute.

The placeholders of a type can be replaced before the text is read, by the text of the owner, or
after it, by the owner itself. The readers are followed call by call: on the tokens with the owner's
in the place of the placeholders each call takes away what it took away before, with the owner's in
their place again.

* `Tracks`: two readings that fail together, or go on alike with related answers;
* `tracks_typeCall`, `tracks_argumentsCall`: one call, if its nested calls do so;
* `Recurses.tracks`: all calls;
* `parse_spliceText`: the text of a type with the owner's in the place of the placeholders is read
  as the type with the owner in their place, and is the text of no type if the first one is none.
-/

namespace AbiBridge

open Outcome Token

namespace BoundaryType

variable {enums : EnumTable} {os : List Token} {owner : BoundaryType}

/-! ### Owners -/

/-- Tokens of a struct, which begin with an identifier other than `mut`; there is no enum of the
placeholder's name. -/
structure IsOwner (enums : EnumTable) (os : List Token) (owner : BoundaryType) : Prop where
  derived : Derives enums os owner
  head : ∃ first, os.head? = some (.name first) ∧ first ≠ "mut"
  notDeclared : enums.lookup selfPlaceholder = none

namespace IsOwner

variable (hos : IsOwner enums os owner) {joined : Bool} {ts : List Token} {t : Token}

include hos

/-- An identifier of the text, or of the owner, stands where there was one. -/
lemma exists_splice_name (joined : Bool) (s : String) (ts : List Token) :
    ∃ s' rest, splice os joined (.name s :: ts) = .name s' :: rest := by
  obtain ⟨first, hfirst, -⟩ := hos.head
  obtain ⟨others, rfl⟩ := List.head?_eq_some_iff.mp hfirst
  cases hplace : isPlaceholder joined (.name s) ts.head? with
  | true => exact ⟨first, _, splice_cons_of_isPlaceholder hplace⟩
  | false => exact ⟨s, _, splice_cons hplace⟩

/-- A token with which the owner does not begin stands at the head if it did before. -/
lemma head?_splice_iff (ht : os.head? ≠ some t) (hself : t ≠ .name selfPlaceholder) :
    (splice os joined ts).head? = some t ↔ ts.head? = some t := by
  cases ts with
  | nil => exact Iff.rfl
  | cons u us =>
      cases hplace : isPlaceholder joined u us.head? with
      | true =>
          obtain ⟨rfl, -, -, -⟩ := isPlaceholder_iff.mp hplace
          rw [splice_cons_of_isPlaceholder hplace, List.head?_append_of_ne_nil _ hos.derived.ne_nil]
          refine iff_of_false ht ?_
          rw [List.head?_cons, Option.some.injEq]
          exact hself.symm
      | false => rw [splice_cons hplace, List.head?_cons, List.head?_cons]

lemma head?_ne_of_isSign (ht : t.isSign = true) : os.head? ≠ some t := by
  obtain ⟨first, hfirst, -⟩ := hos.head
  rw [hfirst]
  rintro h
  cases h
  cases ht

lemma head?_splice_sign_iff (ht : t.isSign = true) :
    (splice os joined ts).head? = some t ↔ ts.head? = some t := by
  refine hos.head?_splice_iff (hos.head?_ne_of_isSign ht) ?_
  rintro rfl
  cases ht

lemma splice_eq_nil_iff : splice os joined ts = [] ↔ ts = [] := by
  cases ts with
  | nil => exact Iff.rfl
  | cons u us =>
      refine iff_of_false ?_ (List.cons_ne_nil u us)
      cases hplace : isPlaceholder joined u us.head? with
      | true =>
          rw [splice_cons_of_isPlaceholder hplace]
          simp [hos.derived.ne_nil]
      | false =>
          rw [splice_cons hplace]
          exact List.cons_ne_nil _ _

/-- The word `mut` is written again, and stands nowhere else. -/
lemma afterMut?_splice :
    afterMut? (splice os false ts) = (afterMut? ts).map (splice os false) := by
  obtain ⟨first, hfirst, hmut⟩ := hos.head
  cases h : afterMut? ts with
  | some rest =>
      rw [afterMut?_eq_some_iff] at h
      subst h
      have hplace : isPlaceholder false (.name "mut") rest.head? = false := by
        simp [isPlaceholder, selfPlaceholder]
      rw [splice_cons hplace]
      rfl
  | none =>
      rw [afterMut?_eq_none_iff] at h
      refine afterMut?_eq_none_iff.mpr fun hhead => h ?_
      refine (hos.head?_splice_iff ?_ (by decide)).mp hhead
      rw [hfirst]
      simpa using hmut

end IsOwner

/-- A sign is written again. -/
lemma splice_cons_sign {t : Token} {ts : List Token} (ht : t.isSign = true) :
    splice os false (t :: ts) = t :: splice os (t = .doubleColon) ts :=
  splice_cons (isPlaceholder_of_isSign ht)

/-! ### Two readings -/

/-- Two readings fail together, or both succeed, with related answers; and then the second one
leaves what the first one left with the owner's tokens in the place of the placeholders. -/
inductive Tracks {α : Type} (S : α → α → Prop) (os : List Token) :
    Except SyntaxFault (α × List Token) → Except SyntaxFault (α × List Token) → Prop where
  | ok {a b : α} (rest : List Token) (related : S a b) :
      Tracks S os (.ok (a, rest)) (.ok (b, splice os false rest))
  | error (fault fault' : SyntaxFault) : Tracks S os (.error fault) (.error fault')

namespace Tracks

variable {α β : Type} {S : α → α → Prop} {S' : β → β → Prop}
  {x y : Except SyntaxFault (α × List Token)}

lemma bind {f g : α × List Token → Except SyntaxFault (β × List Token)} (h : Tracks S os x y)
    (hfg : ∀ a b rest, x = .ok (a, rest) → S a b →
      Tracks S' os (f (a, rest)) (g (b, splice os false rest))) :
    Tracks S' os (x >>= f) (y >>= g) := by
  cases h with
  | ok rest hrelated => exact hfg _ _ rest rfl hrelated
  | error fault fault' => exact .error fault fault'

end Tracks

/-- The second type is the first one with the owner in the place of the placeholders. -/
abbrev Resolves (owner t t' : BoundaryType) : Prop := t.resolveSelf owner = .ok t'

/-- The second list of arguments is the first one with the owner in the place of the
placeholders. -/
abbrev ResolvesAll (owner : BoundaryType) (ps ps' : List BoundaryType) : Prop :=
  ps ≠ [] ∧ resolveSelfAll ps owner = .ok ps'

/-! ### Paths -/

lemma tracks_readSegments (hos : IsOwner enums os owner) (ts : List Token) :
    Tracks Eq os (readSegments ts) (readSegments (splice os false ts)) := by
  fun_induction readSegments ts with
  | case1 s ts ih =>
      rw [splice_cons_sign rfl, decide_eq_true rfl, splice_cons isPlaceholder_of_joined]
      refine ih.bind fun a b rest _ hab => ?_
      subst hab
      exact .ok rest rfl
  | case2 ts hname =>
      rw [splice_cons_sign rfl, decide_eq_true rfl]
      cases ts with
      | nil => exact .error _ _
      | cons t ts =>
          rw [splice_cons isPlaceholder_of_joined]
          cases t with
          | name s => exact absurd rfl (hname s ts)
          | _ => exact .error _ _
  | case3 ts hname hcolon =>
      have hhead : ts.head? ≠ some .doubleColon := by
        intro hhead
        obtain ⟨rest, rfl⟩ := List.head?_eq_some_iff.mp hhead
        exact hcolon rest rfl
      have hsplice : (splice os false ts).head? ≠ some .doubleColon :=
        mt (hos.head?_splice_sign_iff rfl).mp hhead
      have hread : readSegments (splice os false ts) = .ok ([], splice os false ts) :=
        readSegments_eq_ok_iff.mpr ⟨rfl, hsplice⟩
      rw [hread]
      exact .ok ts rfl

/-- A path of several segments is no placeholder. -/
lemma pathText_eq_selfPlaceholder {first : String} {others : List String}
    (h : pathText first others = selfPlaceholder) : first = selfPlaceholder ∧ others = [] := by
  cases others with
  | nil => exact ⟨by simpa [pathText] using h, rfl⟩
  | cons s others =>
      have hcolon : ':' ∈ (pathText first (s :: others)).toList := by
        simp [pathText, String.intercalate_cons_cons]
      rw [h] at hcolon
      exact absurd hcolon (by decide)

/-- What a path stands for, other than the placeholder. -/
lemma tracks_ofPath {path : String} {params params' : List BoundaryType} {rest : List Token}
    (hpath : ¬(path = selfPlaceholder ∧ params = []))
    (hparams : resolveSelfAll params owner = .ok params') :
    Tracks (Resolves owner) os (do return (← ofPath enums path params, rest))
      (do return (← ofPath enums path params', splice os false rest)) := by
  have hall := resolveSelfAll_eq_ok_iff.mp hparams
  rw [ofPath.eq_def, ofPath.eq_def]
  split_ifs with hrun hscalar
  · -- a run has one argument
    cases hall with
    | nil => exact .error _ _
    | cons helem hrest =>
        cases hrest with
        | nil => exact .ok rest (bind_eq_ok.mpr ⟨_, helem, rfl⟩)
        | cons _ _ => exact .error _ _
  · cases hall with
    | nil => exact .ok rest rfl
    | cons _ _ => exact .error _ _
  · cases enums.lookup path with
    | some variants =>
        cases hall with
        | nil => exact .ok rest rfl
        | cons _ _ => exact .error _ _
    | none =>
        refine .ok rest ?_
        rw [Resolves, resolveSelf, if_neg hpath, hparams]
        rfl

/-! ### One call -/

section Call

variable {type : Reader BoundaryType} {arguments : Reader (List BoundaryType)} {ts : List Token}

/-- A path that is no placeholder, with the arguments behind it if there are any. -/
lemma tracks_pathCall (hos : IsOwner enums os owner) {s : String}
    (hplace : isPlaceholder false (.name s) ts.head? = false)
    (harguments : ∀ ts', ts'.length < ts.length →
      Tracks (ResolvesAll owner) os (arguments ts') (arguments (splice os false ts'))) :
    Tracks (Resolves owner) os (pathCall enums arguments (.name s :: ts))
      (pathCall enums arguments (.name s :: splice os false ts)) := by
  have hsegments := tracks_readSegments hos ts
  have hread : ∀ ts', readPath (.name s :: ts') =
      readSegments ts' >>= fun read => .ok (pathText s read.1, read.2) := fun _ => rfl
  rw [pathCall, pathCall, hread, hread]
  cases hfirst : readSegments ts with
  | error fault =>
      rw [hfirst] at hsegments
      generalize readSegments (splice os false ts) = second at hsegments ⊢
      cases hsegments
      exact .error _ _
  | ok read =>
      obtain ⟨others, rest⟩ := read
      rw [hfirst] at hsegments
      generalize readSegments (splice os false ts) = second at hsegments ⊢
      cases hsegments with
      | ok _ hothers =>
      subst hothers
      obtain ⟨rfl, hcolon⟩ := readSegments_eq_ok_iff.mp hfirst
      -- a path without arguments is a placeholder only if it has one segment
      have hplain (hless : rest.head? ≠ some .less) : Tracks (Resolves owner) os
          (do return (← ofPath enums (pathText s others) [], rest))
          (do return (← ofPath enums (pathText s others) [], splice os false rest)) := by
        refine tracks_ofPath ?_ rfl
        rintro ⟨hself, -⟩
        obtain ⟨rfl, rfl⟩ := pathText_eq_selfPlaceholder hself
        rw [List.flatMap_nil, List.nil_append] at hplace
        rw [isPlaceholder_iff.mpr ⟨rfl, rfl, hcolon, hless⟩] at hplace
        cases hplace
      cases rest with
      | nil => exact hplain (by simp)
      | cons t rest =>
          cases t with
          | less =>
              rw [splice_cons_sign rfl]
              refine (harguments rest ?_).bind fun params params' rest' _ hparams => ?_
              · simp only [List.length_append, List.length_cons]
                omega
              · exact tracks_ofPath (fun h => hparams.1 h.2) hparams.2
          | name s' =>
              have htracks := hplain (by simp)
              obtain ⟨s'', rest', hrest⟩ := hos.exists_splice_name false s' rest
              rw [hrest] at htracks ⊢
              exact htracks
          | _ =>
              have htracks := hplain (by simp)
              rw [splice_cons_sign rfl] at htracks ⊢
              exact htracks

/-- One call of the reader of types, if its nested calls go on alike and it reads the owner. -/
lemma tracks_typeCall (hos : IsOwner enums os owner)
    (htype : ∀ ts', ts'.length < ts.length →
      Tracks (Resolves owner) os (type ts') (type (splice os false ts')))
    (harguments : ∀ ts', ts'.length + 1 < ts.length →
      Tracks (ResolvesAll owner) os (arguments ts') (arguments (splice os false ts')))
    (howner : ∀ rest, rest.head? ≠ some .doubleColon → rest.head? ≠ some .less →
      typeCall enums type arguments (os ++ rest) = .ok (owner, rest)) :
    Tracks (Resolves owner) os (typeCall enums type arguments ts)
      (typeCall enums type arguments (splice os false ts)) := by
  cases ts with
  | nil => exact .error _ _
  | cons t ts =>
      cases t with
      | ampersand =>
          have hcolon : decide (Token.ampersand = .doubleColon) = false := rfl
          rw [splice_cons_sign rfl, typeCall, typeCall, hcolon, hos.afterMut?_splice]
          cases hmut : afterMut? ts with
          | some rest =>
              rw [afterMut?_eq_some_iff] at hmut
              subst hmut
              refine (htype rest ?_).bind fun t t' rest' _ ht => ?_
              · simp only [List.length_cons]
                omega
              · exact .ok rest' (bind_eq_ok.mpr ⟨t', ht, rfl⟩)
          | none =>
              refine (htype ts (Nat.lt_succ_self _)).bind fun t t' rest' _ ht => ?_
              exact .ok rest' (bind_eq_ok.mpr ⟨t', ht, rfl⟩)
      | openBracket =>
          have hcolon : decide (Token.openBracket = .doubleColon) = false := rfl
          rw [splice_cons_sign rfl, typeCall, typeCall, hcolon]
          refine (htype ts (Nat.lt_succ_self _)).bind fun t t' rest' _ ht => ?_
          cases rest' with
          | nil => exact .error _ _
          | cons sign rest' =>
              cases sign with
              | closeBracket =>
                  rw [splice_cons_sign rfl]
                  exact .ok rest' (bind_eq_ok.mpr ⟨t', ht, rfl⟩)
              | name s =>
                  obtain ⟨s', rest'', hrest⟩ := hos.exists_splice_name false s rest'
                  rw [hrest]
                  exact .error _ _
              | _ =>
                  rw [splice_cons_sign rfl]
                  exact .error _ _
      | name s =>
          cases hplace : isPlaceholder false (.name s) ts.head? with
          | true =>
              obtain ⟨hname, -, hcolon, hless⟩ := isPlaceholder_iff.mp hplace
              cases hname
              have hself : typeCall enums type arguments (.name selfPlaceholder :: ts) =
                  .ok (.struct selfPlaceholder [], ts) := by
                have hdenoted : Denotes enums (pathText selfPlaceholder []) []
                    (.struct selfPlaceholder []) :=
                  .struct [] (by decide) (by decide) hos.notDeclared
                exact typeCall_eq_ok_iff.mpr (.path hdenoted hcolon hless)
              rw [splice_cons_of_isPlaceholder hplace, hself,
                howner _ (mt (hos.head?_splice_sign_iff rfl).mp hcolon)
                  (mt (hos.head?_splice_sign_iff rfl).mp hless)]
              exact .ok ts rfl
          | false =>
              have hcolon : decide (Token.name s = .doubleColon) = false := rfl
              rw [splice_cons hplace, hcolon]
              refine tracks_pathCall hos hplace fun ts' hts' => harguments ts' ?_
              simpa using hts'
      | _ =>
          rw [splice_cons_sign rfl]
          exact .error _ _

/-- One call of the reader of arguments, if its nested calls go on alike. -/
lemma tracks_argumentsCall (hos : IsOwner enums os owner)
    (htype : Tracks (Resolves owner) os (type ts) (type (splice os false ts)))
    (hshorter : ∀ t rest, type ts = .ok (t, rest) → rest.length < ts.length)
    (harguments : ∀ ts', ts'.length + 1 < ts.length →
      Tracks (ResolvesAll owner) os (arguments ts') (arguments (splice os false ts'))) :
    Tracks (ResolvesAll owner) os (argumentsCall type arguments ts)
      (argumentsCall type arguments (splice os false ts)) := by
  refine htype.bind fun t t' rest hread ht => ?_
  cases rest with
  | nil => exact .error _ _
  | cons sign rest =>
      have hlength := hshorter t _ hread
      cases sign with
      | comma =>
          rw [splice_cons_sign rfl]
          refine (harguments rest ?_).bind fun params params' rest' _ hparams => ?_
          · simp only [List.length_cons] at hlength
            omega
          · exact .ok rest' ⟨List.cons_ne_nil _ _,
              bind_eq_ok.mpr ⟨t', ht, bind_eq_ok.mpr ⟨params', hparams.2, rfl⟩⟩⟩
      | greater =>
          rw [splice_cons_sign rfl]
          exact .ok rest ⟨List.cons_ne_nil _ _,
            bind_eq_ok.mpr ⟨t', ht, bind_eq_ok.mpr ⟨[], rfl, rfl⟩⟩⟩
      | name s =>
          obtain ⟨s', rest', hrest⟩ := hos.exists_splice_name false s rest
          rw [hrest]
          exact .error _ _
      | _ =>
          rw [splice_cons_sign rfl]
          exact .error _ _

end Call

/-! ### All calls -/

section Readers

variable {type : Reader BoundaryType} {arguments : Reader (List BoundaryType)}

/-- A type takes at least one token. -/
lemma Recurses.length_lt (h : Recurses enums type arguments) {ts rest : List Token}
    {t : BoundaryType} (hread : type ts = .ok (t, rest)) : rest.length < ts.length := by
  obtain ⟨front, rfl, hfront⟩ :=
    (h.calls.derives_of_eq_ok _).1 ts t rest (Nat.lt_succ_self _) hread
  have hpos := List.length_pos_iff.mpr hfront.ne_nil
  simp only [List.length_append]
  omega

/-- Readers that call each other read the tokens with the owner's in the place of the placeholders
as they read the tokens themselves. -/
theorem Recurses.tracks (h : Recurses enums type arguments) (hos : IsOwner enums os owner)
    (n : Nat) :
    (∀ ts, ts.length < n → Tracks (Resolves owner) os (type ts) (type (splice os false ts))) ∧
    ∀ ts, ts.length + 1 < n →
      Tracks (ResolvesAll owner) os (arguments ts) (arguments (splice os false ts)) := by
  have howner : ∀ rest, rest.head? ≠ some .doubleColon → rest.head? ≠ some .less →
      typeCall enums type arguments (os ++ rest) = .ok (owner, rest) := by
    intro rest hcolon hless
    rw [← h.type_eq]
    exact h.calls.eq_ok_of_derives hos.derived (Nat.lt_succ_self _) hcolon hless
  induction n with
  | zero => exact ⟨fun ts hts => absurd hts (Nat.not_lt_zero _), fun ts hts => by omega⟩
  | succ n ih =>
      obtain ⟨ihtype, iharguments⟩ := ih
      constructor
      · intro ts hts
        rw [h.type_eq, h.type_eq (splice os false ts)]
        exact tracks_typeCall hos (fun ts' hts' => ihtype ts' (by omega))
          (fun ts' hts' => iharguments ts' (by omega)) howner
      · intro ts hts
        rw [h.arguments_eq, h.arguments_eq (splice os false ts)]
        exact tracks_argumentsCall hos (ihtype ts (by omega)) (fun _ _ => h.length_lt)
          (fun ts' hts' => iharguments ts' (by omega))

end Readers

/-! ### Whole texts -/

/-- The tokens with the owner's in the place of the placeholders are the type with the owner in
their place. -/
lemma ofTokens_splice (hos : IsOwner enums os owner) {ts : List Token} {t' : BoundaryType} :
    ofTokens enums (splice os false ts) = .ok t' ↔
      ∃ t, ofTokens enums ts = .ok t ∧ t.resolveSelf owner = .ok t' := by
  have hreaders : Recurses enums (fun ts => readType enums (ts.length + 1) ts)
      (fun ts => readArguments enums (ts.length + 2) ts) :=
    recurses_iff.mpr ⟨fun _ => rfl, fun _ => rfl⟩
  have htracks := (hreaders.tracks hos (ts.length + 1)).1 ts (Nat.lt_succ_self _)
  rw [ofTokens, ofTokens]
  generalize readType enums (ts.length + 1) ts = x at htracks ⊢
  generalize readType enums _ (splice os false ts) = y at htracks ⊢
  cases htracks with
  | error fault fault' =>
      constructor
      · intro h
        cases h
      · rintro ⟨u, hu, -⟩
        cases hu
  | @ok t t'' rest ht =>
      by_cases hrest : rest = []
      · subst hrest
        constructor
        · intro h
          cases pure_eq_ok.mp h
          exact ⟨t, rfl, ht⟩
        · rintro ⟨u, hu, hresolved⟩
          cases pure_eq_ok.mp hu
          exact pure_eq_ok.mpr (Except.ok.inj (ht.symm.trans hresolved))
      · have hempty : rest.isEmpty = false := by simpa using hrest
        have hempty' : (splice os false rest).isEmpty = false := by
          simpa using mt hos.splice_eq_nil_iff.mp hrest
        change (if (splice os false rest).isEmpty then _ else _) = _ ↔
          ∃ u, (if rest.isEmpty then _ else _) = _ ∧ _
        rw [hempty, hempty']
        constructor
        · intro h
          cases h
        · rintro ⟨u, hu, -⟩
          cases hu

/-- A struct is written with its path in front. -/
lemma Derives.exists_head?_of_struct {name : String} {params : List BoundaryType}
    (h : Derives enums os (.struct name params)) : ∃ first, os.head? = some (.name first) := by
  cases h with
  | path _ => exact ⟨_, rfl⟩
  | applied _ _ => exact ⟨_, rfl⟩

/-- The text of a type with the text of the owner in the place of the placeholders is that of the
type with the owner in their place, and it is no text of a type if the first one is none. -/
theorem parse_spliceText {ownerText name : String} {params : List BoundaryType}
    (howner : parse enums ownerText = .ok (.struct name params))
    (hmut : (struct name params).firstSegment? ≠ some "mut")
    (hself : enums.lookup selfPlaceholder = none) (text : String) (t' : BoundaryType) :
    parse enums (spliceText ownerText text) = .ok t' ↔
      ∃ t, parse enums text = .ok t ∧ t.resolveSelf (.struct name params) = .ok t' := by
  obtain ⟨os, hos, hderived⟩ := parse_eq_ok_iff.mp howner
  have hhead : IsOwner enums os (.struct name params) := by
    obtain ⟨first, hfirst⟩ := hderived.exists_head?_of_struct
    refine ⟨hderived, ⟨first, hfirst, ?_⟩, hself⟩
    rintro rfl
    exact hmut ((hderived.firstSegment?_eq_mut_iff (Token.isWritable_of_tokenize hos)).mpr hfirst)
  simp only [parse_eq_ok_iff, tokenize_spliceText hos, ← ofTokens_eq_ok_iff]
  constructor
  · rintro ⟨_, ⟨us, hus, rfl⟩, h⟩
    obtain ⟨t, ht, hresolved⟩ := (ofTokens_splice hhead).mp h
    exact ⟨t, ⟨us, hus, ht⟩, hresolved⟩
  · rintro ⟨t, ⟨us, hus, ht⟩, hresolved⟩
    exact ⟨_, ⟨us, hus, rfl⟩, (ofTokens_splice hhead).mpr ⟨t, ht, hresolved⟩⟩

end BoundaryType

end AbiBridge
