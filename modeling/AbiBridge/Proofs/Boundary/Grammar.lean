import AbiBridge.Failure
import AbiBridge.Proofs.Outcome

/-!
The grammar of types.

`Derives` says which token lists are types, and of which type, and knows nothing of how they are
read.

* `typeCall_eq_ok_iff`, `argumentsCall_eq_ok_iff`: one call of a reader, with its nested calls left
  open, succeeds as one of a few rows;
* `Calls.derives_of_eq_ok`: what was read is derived by the tokens that were taken away;
* `Calls.eq_ok_of_derives`: what is derived is read, if nothing follows that could go on with it;
* `Calls.eq_of_length_lt`: nested calls are made on fewer tokens, so a bound on their depth that is
  more than the number of tokens is never met;
* `followsGrammar`: texts are read exactly as the grammar says, and reading comes to an end.
-/

namespace AbiBridge

open Outcome

namespace BoundaryType

/-! ### The grammar -/

/-- The identifiers of a path, with double colons between them. -/
def pathTokens (first : String) (others : List String) : List Token :=
  .name first :: others.flatMap fun s => [.doubleColon, .name s]

/-- The text of a path. -/
def pathText (first : String) (others : List String) : String := "::".intercalate (first :: others)

variable {enums : EnumTable}

/-- What a path with arguments stands for. -/
inductive Denotes (enums : EnumTable) : String → List BoundaryType → BoundaryType → Prop where
  | run (elem : BoundaryType) : Denotes enums "Vec" [elem] (.sequence elem)
  | primitive {name : String} (scalar : name ∈ primitiveNames) :
      Denotes enums name [] (.primitive name)
  | enum {name : String} {variants : List String} (notRun : name ≠ "Vec")
      (notScalar : name ∉ primitiveNames) (declared : enums.lookup name = some variants) :
      Denotes enums name [] (.enum name variants)
  | struct {name : String} (params : List BoundaryType) (notRun : name ≠ "Vec")
      (notScalar : name ∉ primitiveNames) (notDeclared : enums.lookup name = none) :
      Denotes enums name params (.struct name params)

mutual

/-- The tokens are a type. -/
inductive Derives (enums : EnumTable) : List Token → BoundaryType → Prop where
  | mutRef {ts : List Token} {inner : BoundaryType} (derived : Derives enums ts inner) :
      Derives enums (.ampersand :: .name "mut" :: ts) (.mutRef inner)
  | sharedRef {ts : List Token} {inner : BoundaryType} (derived : Derives enums ts inner)
      (notMut : ts.head? ≠ some (.name "mut")) : Derives enums (.ampersand :: ts) (.sharedRef inner)
  | sequence {ts : List Token} {elem : BoundaryType} (derived : Derives enums ts elem) :
      Derives enums (.openBracket :: (ts ++ [.closeBracket])) (.sequence elem)
  | path {first : String} {others : List String} {t : BoundaryType}
      (denoted : Denotes enums (pathText first others) [] t) :
      Derives enums (pathTokens first others) t
  | applied {first : String} {others : List String} {ts : List Token}
      {params : List BoundaryType} {t : BoundaryType} (derived : DerivesArguments enums ts params)
      (denoted : Denotes enums (pathText first others) params t) :
      Derives enums (pathTokens first others ++ .less :: (ts ++ [.greater])) t

/-- The tokens are types with commas between them, at least one. -/
inductive DerivesArguments (enums : EnumTable) : List Token → List BoundaryType → Prop where
  | last {ts : List Token} {t : BoundaryType} (derived : Derives enums ts t) :
      DerivesArguments enums ts [t]
  | cons {ts rest : List Token} {t : BoundaryType} {others : List BoundaryType}
      (derived : Derives enums ts t) (derivedOthers : DerivesArguments enums rest others) :
      DerivesArguments enums (ts ++ .comma :: rest) (t :: others)

end

lemma Derives.ne_nil {ts : List Token} {t : BoundaryType} (h : Derives enums ts t) : ts ≠ [] := by
  cases h <;> simp [pathTokens]

lemma DerivesArguments.ne_nil {ts : List Token} {params : List BoundaryType}
    (h : DerivesArguments enums ts params) : ts ≠ [] := by
  cases h with
  | last hderived => exact hderived.ne_nil
  | cons _ _ => simp

/-! ### Names and paths -/

/-- A path is taken for what it stands for. -/
lemma ofPath_eq_ok_iff {path : String} {params : List BoundaryType} {t : BoundaryType} :
    ofPath enums path params = .ok t ↔ Denotes enums path params t := by
  constructor
  · intro h
    rw [ofPath.eq_def] at h
    split at h
    · next hrun =>
      subst hrun
      split at h <;> cases h
      exact .run _
    · next hrun =>
      split at h
      · next hscalar =>
        split at h <;> cases h
        exact .primitive (List.contains_iff_mem.mp hscalar)
      · next hscalar =>
        have hscalar : path ∉ primitiveNames := fun hmem => hscalar (List.contains_iff_mem.mpr hmem)
        split at h
        · next variants hdeclared =>
          split at h <;> cases h
          exact .enum hrun hscalar hdeclared
        · next hdeclared =>
          cases h
          exact .struct params hrun hscalar hdeclared
  · intro h
    cases h with
    | run elem => rfl
    | primitive hscalar =>
        have hrun : path ≠ "Vec" := by
          rintro rfl
          revert hscalar
          decide
        rw [ofPath.eq_def, if_neg hrun, if_pos (List.contains_iff_mem.mpr hscalar)]
        rfl
    | enum hrun hscalar hdeclared =>
        rw [ofPath.eq_def, if_neg hrun, if_neg (mt List.contains_iff_mem.mp hscalar), hdeclared]
        rfl
    | struct params hrun hscalar hdeclared =>
        rw [ofPath.eq_def, if_neg hrun, if_neg (mt List.contains_iff_mem.mp hscalar), hdeclared]
        rfl

/-- The segments behind the first one are read as far as they go. -/
lemma readSegments_eq_ok_iff {ts rest : List Token} {ss : List String} :
    readSegments ts = .ok (ss, rest) ↔
      ts = (ss.flatMap fun s => [.doubleColon, .name s]) ++ rest ∧
        rest.head? ≠ some .doubleColon := by
  constructor
  · intro h
    fun_induction readSegments ts generalizing ss with
    | case1 s ts ih =>
        obtain ⟨⟨ss', rest'⟩, hread, h⟩ := bind_eq_ok.mp h
        cases pure_eq_ok.mp h
        obtain ⟨rfl, hrest⟩ := ih hread
        exact ⟨rfl, hrest⟩
    | case2 ts hname => cases h
    | case3 ts hname hcolon =>
        cases pure_eq_ok.mp h
        refine ⟨rfl, fun hhead => ?_⟩
        obtain ⟨ts', rfl⟩ := List.head?_eq_some_iff.mp hhead
        exact hcolon ts' rfl
  · rintro ⟨rfl, hrest⟩
    induction ss with
    | nil =>
        cases rest with
        | nil => rfl
        | cons t rest =>
            have ht : t ≠ .doubleColon := fun h => hrest (congrArg some h)
            cases t <;> first | rfl | exact absurd rfl ht
    | cons s ss ih =>
        rw [List.flatMap_cons, List.append_assoc]
        exact bind_eq_ok.mpr ⟨(ss, rest), ih, rfl⟩

/-- A path is read as far as it goes. -/
lemma readPath_eq_ok_iff {ts rest : List Token} {path : String} :
    readPath ts = .ok (path, rest) ↔
      ∃ first others, ts = pathTokens first others ++ rest ∧ path = pathText first others ∧
        rest.head? ≠ some .doubleColon := by
  constructor
  · intro h
    rw [readPath.eq_def] at h
    split at h
    · next s ts =>
      obtain ⟨⟨ss, rest'⟩, hread, h⟩ := bind_eq_ok.mp h
      cases pure_eq_ok.mp h
      obtain ⟨rfl, hrest⟩ := readSegments_eq_ok_iff.mp hread
      exact ⟨s, ss, rfl, rfl, hrest⟩
    · cases h
  · rintro ⟨first, others, rfl, rfl, hrest⟩
    have hread : readSegments ((others.flatMap fun s => [.doubleColon, .name s]) ++ rest) =
        .ok (others, rest) := readSegments_eq_ok_iff.mpr ⟨rfl, hrest⟩
    exact bind_eq_ok.mpr ⟨(others, rest), hread, rfl⟩

/-! ### One call -/

/-- A reader of what stands at the head of the tokens. -/
abbrev Reader (α : Type) := List Token → Except SyntaxFault (α × List Token)

section Call

variable (enums : EnumTable) (type type' : Reader BoundaryType)
  (arguments arguments' : Reader (List BoundaryType))

/-- A path with the arguments behind it, if there are any. -/
def pathCall : Reader BoundaryType := fun ts => do
  let (path, rest) ← readPath ts
  match rest with
  | .less :: rest => do
      let (params, rest) ← arguments rest
      return (← ofPath enums path params, rest)
  | _ => return (← ofPath enums path [], rest)

/-- One call of the reader of types. Its nested calls are made to the given readers. -/
def typeCall : Reader BoundaryType
  | [] => throw .unexpectedEnd
  | .ampersand :: ts =>
      match afterMut? ts with
      | some ts => do
          let (inner, rest) ← type ts
          return (mutRef inner, rest)
      | none => do
          let (inner, rest) ← type ts
          return (sharedRef inner, rest)
  | .openBracket :: ts => do
      let (elem, rest) ← type ts
      match rest with
      | .closeBracket :: rest => pure (sequence elem, rest)
      | _ => throw (.expected .closeBracket rest.head?)
  | ts => pathCall enums arguments ts

/-- One call of the reader of arguments. -/
def argumentsCall : Reader (List BoundaryType) := fun ts => do
  let (first, rest) ← type ts
  match rest with
  | .comma :: rest => do
      let (others, rest) ← arguments rest
      return (first :: others, rest)
  | .greater :: rest => pure ([first], rest)
  | _ => throw (.expected .greater rest.head?)

/-- For each kind of type, what a call takes away. -/
inductive TypeRow : List Token → BoundaryType → List Token → Prop where
  | mutRef {ts rest : List Token} {inner : BoundaryType} (read : type ts = .ok (inner, rest)) :
      TypeRow (.ampersand :: .name "mut" :: ts) (.mutRef inner) rest
  | sharedRef {ts rest : List Token} {inner : BoundaryType} (read : type ts = .ok (inner, rest))
      (notMut : ts.head? ≠ some (.name "mut")) :
      TypeRow (.ampersand :: ts) (.sharedRef inner) rest
  | sequence {ts rest : List Token} {elem : BoundaryType}
      (read : type ts = .ok (elem, .closeBracket :: rest)) :
      TypeRow (.openBracket :: ts) (.sequence elem) rest
  | path {first : String} {others : List String} {rest : List Token} {t : BoundaryType}
      (denoted : Denotes enums (pathText first others) [] t)
      (noSegment : rest.head? ≠ some .doubleColon) (noArguments : rest.head? ≠ some .less) :
      TypeRow (pathTokens first others ++ rest) t rest
  | applied {first : String} {others : List String} {ts rest : List Token}
      {params : List BoundaryType} {t : BoundaryType} (read : arguments ts = .ok (params, rest))
      (denoted : Denotes enums (pathText first others) params t) :
      TypeRow (pathTokens first others ++ .less :: ts) t rest

/-- For a last argument and for one with others behind it, what a call takes away. -/
inductive ArgumentsRow : List Token → List BoundaryType → List Token → Prop where
  | last {ts rest : List Token} {t : BoundaryType} (read : type ts = .ok (t, .greater :: rest)) :
      ArgumentsRow ts [t] rest
  | cons {ts ts' rest : List Token} {t : BoundaryType} {others : List BoundaryType}
      (read : type ts = .ok (t, .comma :: ts')) (readOthers : arguments ts' = .ok (others, rest)) :
      ArgumentsRow ts (t :: others) rest

variable {enums type type' arguments arguments'} {ts rest : List Token}

lemma afterMut?_eq_some_iff {ts' : List Token} :
    afterMut? ts = some ts' ↔ ts = .name "mut" :: ts' := by
  rw [afterMut?.eq_def]
  split
  · next word ts => by_cases hword : word = "mut" <;> simp [hword]
  · next hname =>
    refine ⟨fun h => (nomatch h), fun h => absurd h (hname "mut" ts')⟩

lemma afterMut?_eq_none_iff : afterMut? ts = none ↔ ts.head? ≠ some (.name "mut") := by
  rw [Option.eq_none_iff_forall_ne_some]
  constructor
  · intro h hhead
    obtain ⟨ts', hts⟩ := List.head?_eq_some_iff.mp hhead
    exact h ts' (afterMut?_eq_some_iff.mpr hts)
  · intro h ts' hts
    rw [afterMut?_eq_some_iff.mp hts] at h
    exact h rfl

/-- A path is read with its arguments, or with none where no list of arguments follows. -/
lemma pathCall_eq_ok_iff {t : BoundaryType} :
    pathCall enums arguments ts = .ok (t, rest) ↔ ∃ first others,
      (ts = pathTokens first others ++ rest ∧ Denotes enums (pathText first others) [] t ∧
        rest.head? ≠ some .doubleColon ∧ rest.head? ≠ some .less) ∨
      ∃ ts' params, ts = pathTokens first others ++ .less :: ts' ∧
        arguments ts' = .ok (params, rest) ∧ Denotes enums (pathText first others) params t := by
  constructor
  · intro h
    obtain ⟨⟨path, rest'⟩, hpath, h⟩ := bind_eq_ok.mp h
    obtain ⟨first, others, rfl, rfl, hcolon⟩ := readPath_eq_ok_iff.mp hpath
    refine ⟨first, others, ?_⟩
    dsimp only at h
    split at h
    · obtain ⟨⟨params, rest''⟩, harguments, h⟩ := bind_eq_ok.mp h
      obtain ⟨t', ht, h⟩ := bind_eq_ok.mp h
      cases pure_eq_ok.mp h
      exact Or.inr ⟨_, params, rfl, harguments, ofPath_eq_ok_iff.mp ht⟩
    · next hless =>
      obtain ⟨t', ht, h⟩ := bind_eq_ok.mp h
      cases pure_eq_ok.mp h
      refine Or.inl ⟨rfl, ofPath_eq_ok_iff.mp ht, hcolon, fun hhead => ?_⟩
      obtain ⟨ts', hts⟩ := List.head?_eq_some_iff.mp hhead
      exact hless ts' hts
  · rintro ⟨first, others, ⟨rfl, ht, hcolon, hless⟩ | ⟨ts', params, rfl, harguments, ht⟩⟩
    · refine bind_eq_ok.mpr ⟨_, readPath_eq_ok_iff.mpr ⟨first, others, rfl, rfl, hcolon⟩, ?_⟩
      dsimp only
      split
      · exact absurd rfl hless
      · exact bind_eq_ok.mpr ⟨t, ofPath_eq_ok_iff.mpr ht, rfl⟩
    · refine bind_eq_ok.mpr ⟨_, readPath_eq_ok_iff.mpr ⟨first, others, rfl, rfl, by simp⟩, ?_⟩
      exact bind_eq_ok.mpr ⟨_, harguments, bind_eq_ok.mpr ⟨t, ofPath_eq_ok_iff.mpr ht, rfl⟩⟩

/-- A call of the reader of types succeeds as one of the rows. -/
lemma typeCall_eq_ok_iff {t : BoundaryType} :
    typeCall enums type arguments ts = .ok (t, rest) ↔
      TypeRow enums type arguments ts t rest := by
  constructor
  · intro h
    rw [typeCall.eq_def] at h
    split at h
    · cases h
    · next ts =>
      split at h
      · next ts' hmut =>
        obtain ⟨⟨inner, rest'⟩, hread, h⟩ := bind_eq_ok.mp h
        cases pure_eq_ok.mp h
        rw [afterMut?_eq_some_iff.mp hmut]
        exact .mutRef hread
      · next hmut =>
        obtain ⟨⟨inner, rest'⟩, hread, h⟩ := bind_eq_ok.mp h
        cases pure_eq_ok.mp h
        exact .sharedRef hread (afterMut?_eq_none_iff.mp hmut)
    · next ts =>
      obtain ⟨⟨elem, rest'⟩, hread, h⟩ := bind_eq_ok.mp h
      dsimp only at h
      split at h
      · cases pure_eq_ok.mp h
        exact .sequence hread
      · cases h
    · obtain ⟨first, others, ⟨rfl, ht, hcolon, hless⟩ | ⟨ts', params, rfl, hread, ht⟩⟩ :=
        pathCall_eq_ok_iff.mp h
      · exact .path ht hcolon hless
      · exact .applied hread ht
  · intro h
    cases h with
    | mutRef hread => exact bind_eq_ok.mpr ⟨_, hread, rfl⟩
    | @sharedRef ts rest inner hread hmut =>
        rw [typeCall, afterMut?_eq_none_iff.mpr hmut]
        exact bind_eq_ok.mpr ⟨_, hread, rfl⟩
    | sequence hread => exact bind_eq_ok.mpr ⟨_, hread, rfl⟩
    | @path first others rest t ht hcolon hless =>
        exact pathCall_eq_ok_iff.mpr ⟨first, others, Or.inl ⟨rfl, ht, hcolon, hless⟩⟩
    | @applied first others ts rest params t hread ht =>
        exact pathCall_eq_ok_iff.mpr ⟨first, others, Or.inr ⟨ts, params, rfl, hread, ht⟩⟩

/-- A call of the reader of arguments succeeds as one of the rows. -/
lemma argumentsCall_eq_ok_iff {params : List BoundaryType} :
    argumentsCall type arguments ts = .ok (params, rest) ↔
      ArgumentsRow type arguments ts params rest := by
  constructor
  · intro h
    obtain ⟨⟨first, rest'⟩, hread, h⟩ := bind_eq_ok.mp h
    dsimp only at h
    split at h
    · obtain ⟨⟨others, rest''⟩, hothers, h⟩ := bind_eq_ok.mp h
      cases pure_eq_ok.mp h
      exact .cons hread hothers
    · cases pure_eq_ok.mp h
      exact .last hread
    · cases h
  · intro h
    cases h with
    | last hread => exact bind_eq_ok.mpr ⟨_, hread, rfl⟩
    | cons hread hothers =>
        exact bind_eq_ok.mpr ⟨_, hread, bind_eq_ok.mpr ⟨_, hothers, rfl⟩⟩

/-- A call is the same for readers that agree on fewer tokens. -/
lemma typeCall_congr (htype : ∀ ts', ts'.length < ts.length → type ts' = type' ts')
    (harguments : ∀ ts', ts'.length + 1 < ts.length → arguments ts' = arguments' ts') :
    typeCall enums type arguments ts = typeCall enums type' arguments' ts := by
  have hpath : pathCall enums arguments ts = pathCall enums arguments' ts := by
    rw [pathCall, pathCall]
    cases hread : readPath ts with
    | error fault => rfl
    | ok read =>
        obtain ⟨path, rest⟩ := read
        obtain ⟨first, others, rfl, -, -⟩ := readPath_eq_ok_iff.mp hread
        cases rest with
        | nil => rfl
        | cons tok rest =>
            cases tok with
            | less =>
                have hrest := harguments rest (by
                  simp only [pathTokens, List.length_append, List.length_cons]
                  omega)
                change (arguments rest >>= _) = (arguments' rest >>= _)
                rw [hrest]
            | _ => rfl
  cases ts with
  | nil => rfl
  | cons tok ts =>
      have hts := htype ts (by simp)
      cases tok with
      | ampersand =>
          rw [typeCall, typeCall]
          cases hmut : afterMut? ts with
          | none => simp only [hts]
          | some ts' =>
              rw [afterMut?_eq_some_iff.mp hmut] at htype
              simp only [htype ts' (by simp only [List.length_cons]; omega)]
      | openBracket => rw [typeCall, typeCall, hts]
      | _ => exact hpath

lemma argumentsCall_congr (htype : type ts = type' ts)
    (hshorter : ∀ t rest, type ts = .ok (t, rest) → rest.length < ts.length)
    (harguments : ∀ ts', ts'.length + 1 < ts.length → arguments ts' = arguments' ts') :
    argumentsCall type arguments ts = argumentsCall type' arguments' ts := by
  rw [argumentsCall, argumentsCall, ← htype]
  cases hread : type ts with
  | error fault => rfl
  | ok read =>
      obtain ⟨t, rest⟩ := read
      have hlength := hshorter t rest hread
      cases rest with
      | nil => rfl
      | cons tok rest =>
          cases tok with
          | comma =>
              have hrest := harguments rest (by simp at hlength; omega)
              change (arguments rest >>= _) = (arguments' rest >>= _)
              rw [hrest]
          | _ => rfl

end Call

/-! ### Calls that call each other -/

/-- Readers of types and of arguments that call each other, by the depth that is left to them. -/
structure Calls (enums : EnumTable) (type : Nat → Reader BoundaryType)
    (arguments : Nat → Reader (List BoundaryType)) : Prop where
  type_succ : ∀ depth ts, type (depth + 1) ts = typeCall enums (type depth) (arguments depth) ts
  arguments_succ : ∀ depth ts,
    arguments (depth + 1) ts = argumentsCall (type depth) (arguments depth) ts

/-- Readers of types and of arguments that call each other, however deep. -/
structure Recurses (enums : EnumTable) (type : Reader BoundaryType)
    (arguments : Reader (List BoundaryType)) : Prop where
  type_eq : ∀ ts, type ts = typeCall enums type arguments ts
  arguments_eq : ∀ ts, arguments ts = argumentsCall type arguments ts

lemma Recurses.calls {type : Reader BoundaryType} {arguments : Reader (List BoundaryType)}
    (h : Recurses enums type arguments) : Calls enums (fun _ => type) (fun _ => arguments) :=
  ⟨fun _ => h.type_eq, fun _ => h.arguments_eq⟩

/-- The bounded readers make these calls. -/
lemma calls_readType (enums : EnumTable) : Calls enums (readType enums) (readArguments enums) where
  type_succ := by
    intro depth ts
    cases ts with
    | nil => rfl
    | cons tok ts => cases tok <;> rfl
  arguments_succ := fun _ _ => rfl

namespace Calls

variable {type type' : Nat → Reader BoundaryType}
  {arguments arguments' : Nat → Reader (List BoundaryType)}

/-- What was read is derived by the tokens that were taken away. -/
theorem derives_of_eq_ok (h : Calls enums type arguments) (depth : Nat) :
    (∀ ts t rest, ts.length < depth → type depth ts = .ok (t, rest) →
      ∃ front, ts = front ++ rest ∧ Derives enums front t) ∧
    ∀ ts params rest, ts.length + 1 < depth → arguments depth ts = .ok (params, rest) →
      ∃ front, ts = front ++ .greater :: rest ∧ DerivesArguments enums front params := by
  induction depth with
  | zero => exact ⟨fun ts t rest hdepth => by omega, fun ts params rest hdepth => by omega⟩
  | succ depth ih =>
      obtain ⟨ihtype, iharguments⟩ := ih
      constructor
      · intro ts t rest hdepth hread
        rw [h.type_succ] at hread
        cases typeCall_eq_ok_iff.mp hread with
        | mutRef hinner =>
            obtain ⟨front, rfl, hfront⟩ := ihtype _ _ _ (by simp at hdepth; omega) hinner
            exact ⟨_, rfl, .mutRef hfront⟩
        | sharedRef hinner hmut =>
            obtain ⟨front, rfl, hfront⟩ := ihtype _ _ _ (by simp at hdepth; omega) hinner
            refine ⟨_, rfl, .sharedRef hfront ?_⟩
            rwa [List.head?_append_of_ne_nil _ hfront.ne_nil] at hmut
        | sequence helem =>
            obtain ⟨front, rfl, hfront⟩ := ihtype _ _ _ (by simp at hdepth; omega) helem
            exact ⟨_, by simp, .sequence hfront⟩
        | path ht hcolon hless => exact ⟨_, rfl, .path ht⟩
        | applied hparams ht =>
            obtain ⟨front, rfl, hfront⟩ :=
              iharguments _ _ _ (by simp [pathTokens] at hdepth; omega) hparams
            exact ⟨_, by simp, .applied hfront ht⟩
      · intro ts params rest hdepth hread
        rw [h.arguments_succ] at hread
        cases argumentsCall_eq_ok_iff.mp hread with
        | last hfirst =>
            obtain ⟨front, rfl, hfront⟩ := ihtype _ _ _ (by omega) hfirst
            exact ⟨front, rfl, .last hfront⟩
        | cons hfirst hothers =>
            obtain ⟨front, rfl, hfront⟩ := ihtype _ _ _ (by omega) hfirst
            obtain ⟨front', rfl, hfront'⟩ :=
              iharguments _ _ _ (by simp at hdepth; omega) hothers
            exact ⟨_, by simp, .cons hfront hfront'⟩

/-- A depth that is more than some length is not zero. -/
lemma exists_eq_succ {n depth : Nat} (h : n < depth) : ∃ k, depth = k + 1 ∧ n ≤ k :=
  ⟨depth - 1, by omega, by omega⟩

mutual

/-- What is derived is read, if nothing follows that could go on with it. -/
theorem eq_ok_of_derives (h : Calls enums type arguments) {front rest : List Token}
    {t : BoundaryType} {depth : Nat} (derived : Derives enums front t)
    (hdepth : front.length < depth) (hcolon : rest.head? ≠ some .doubleColon)
    (hless : rest.head? ≠ some .less) : type depth (front ++ rest) = .ok (t, rest) := by
  obtain ⟨depth, rfl, hdepth⟩ := exists_eq_succ hdepth
  rw [h.type_succ, typeCall_eq_ok_iff]
  cases derived with
  | mutRef hinner =>
      exact .mutRef (eq_ok_of_derives h hinner (by simp at hdepth; omega) hcolon hless)
  | sharedRef hinner hmut =>
      rw [List.cons_append]
      refine .sharedRef (eq_ok_of_derives h hinner (by simp at hdepth; omega) hcolon hless) ?_
      rwa [List.head?_append_of_ne_nil _ hinner.ne_nil]
  | sequence helem =>
      rw [List.cons_append, List.append_assoc]
      exact .sequence (eq_ok_of_derives h helem (by simp at hdepth; omega) (by simp) (by simp))
  | path ht => exact .path ht hcolon hless
  | applied hparams ht =>
      rw [List.append_assoc, List.cons_append, List.append_assoc]
      exact .applied (arguments_eq_ok_of_derives h hparams (by simp [pathTokens] at hdepth; omega))
        ht
termination_by depth

/-- What is derived as arguments is read with the sign that closes them. -/
theorem arguments_eq_ok_of_derives (h : Calls enums type arguments) {front rest : List Token}
    {params : List BoundaryType} {depth : Nat} (derived : DerivesArguments enums front params)
    (hdepth : front.length + 1 < depth) :
    arguments depth (front ++ .greater :: rest) = .ok (params, rest) := by
  obtain ⟨depth, rfl, hdepth⟩ := exists_eq_succ hdepth
  rw [h.arguments_succ, argumentsCall_eq_ok_iff]
  cases derived with
  | last hfirst => exact .last (eq_ok_of_derives h hfirst (by omega) (by simp) (by simp))
  | cons hfirst hothers =>
      rw [List.append_assoc]
      exact .cons (eq_ok_of_derives h hfirst (by simp at hdepth; omega) (by simp) (by simp))
        (arguments_eq_ok_of_derives h hothers (by simp at hdepth; omega))
termination_by depth

end

/-- A reader with more depth than there are tokens never runs out of it, so any two of them
agree. -/
theorem eq_of_length_lt (h : Calls enums type arguments) (h' : Calls enums type' arguments')
    (depth : Nat) : ∀ depth',
    (∀ ts, ts.length < depth → ts.length < depth' → type depth ts = type' depth' ts) ∧
    ∀ ts, ts.length + 1 < depth → ts.length + 1 < depth' →
      arguments depth ts = arguments' depth' ts := by
  induction depth with
  | zero => exact fun depth' => ⟨fun ts hdepth => by omega, fun ts hdepth => by omega⟩
  | succ depth ih =>
      intro depth'
      cases depth' with
      | zero => exact ⟨fun ts _ hdepth => by omega, fun ts _ hdepth => by omega⟩
      | succ depth' =>
          obtain ⟨ihtype, iharguments⟩ := ih depth'
          constructor
          · intro ts hdepth hdepth'
            rw [h.type_succ, h'.type_succ]
            exact typeCall_congr (fun ts' hts => ihtype ts' (by omega) (by omega))
              (fun ts' hts => iharguments ts' (by omega) (by omega))
          · intro ts hdepth hdepth'
            rw [h.arguments_succ, h'.arguments_succ]
            refine argumentsCall_congr (ihtype ts (by omega) (by omega)) (fun t rest hread => ?_)
              (fun ts' hts => iharguments ts' (by omega) (by omega))
            obtain ⟨front, rfl, hfront⟩ :=
              (h.derives_of_eq_ok depth).1 ts t rest (by omega) hread
            have hpos := List.length_pos_iff.mpr hfront.ne_nil
            simp only [List.length_append]
            omega

end Calls

/-- The readers without a bound on the depth are those whose bound is never met. -/
lemma recurses_iff {type : Reader BoundaryType} {arguments : Reader (List BoundaryType)} :
    Recurses enums type arguments ↔
      (∀ ts, type ts = readType enums (ts.length + 1) ts) ∧
        ∀ ts, arguments ts = readArguments enums (ts.length + 2) ts := by
  have hread := calls_readType enums
  constructor
  · intro h
    have heq := fun depth => h.calls.eq_of_length_lt hread depth depth
    exact ⟨fun ts => (heq _).1 ts (by omega) (by omega),
      fun ts => (heq _).2 ts (by omega) (by omega)⟩
  · rintro ⟨htype, harguments⟩
    have hany : ∀ ts depth, ts.length < depth → readType enums depth ts = type ts := by
      intro ts depth hdepth
      rw [htype]
      exact (hread.eq_of_length_lt hread _ _).1 ts hdepth (Nat.lt_succ_self _)
    have hanyArguments : ∀ ts depth, ts.length + 1 < depth →
        readArguments enums depth ts = arguments ts := by
      intro ts depth hdepth
      rw [harguments]
      exact (hread.eq_of_length_lt hread _ _).2 ts hdepth (Nat.lt_succ_self _)
    constructor
    · intro ts
      rw [htype, hread.type_succ]
      exact typeCall_congr (fun ts' hts => hany ts' _ hts) (fun ts' hts => hanyArguments ts' _ hts)
    · intro ts
      rw [harguments, hread.arguments_succ]
      refine argumentsCall_congr (hany ts _ (Nat.lt_succ_self _)) (fun t rest hfirst => ?_)
        (fun ts' hts => hanyArguments ts' _ (by omega))
      obtain ⟨front, rfl, hfront⟩ := (hread.derives_of_eq_ok _).1 ts t rest (by omega) hfirst
      have hpos := List.length_pos_iff.mpr hfront.ne_nil
      simp only [List.length_append]
      omega

/-! ### Whole texts -/

/-- All the tokens together are a type exactly if they derive it. -/
theorem ofTokens_eq_ok_iff {ts : List Token} {t : BoundaryType} :
    ofTokens enums ts = .ok t ↔ Derives enums ts t := by
  have hread := calls_readType enums
  rw [ofTokens, bind_eq_ok]
  constructor
  · rintro ⟨⟨t', rest⟩, hfirst, h⟩
    obtain ⟨front, hts, hfront⟩ := (hread.derives_of_eq_ok _).1 ts t' rest (by omega) hfirst
    cases rest with
    | nil =>
        cases pure_eq_ok.mp h
        rwa [hts, List.append_nil]
    | cons tok rest => cases h
  · intro h
    have hnone : ∀ tok : Token, ([] : List Token).head? ≠ some tok := fun _ => nofun
    have hfirst := hread.eq_ok_of_derives h (Nat.lt_succ_self _) (hnone .doubleColon) (hnone .less)
    rw [List.append_nil] at hfirst
    exact ⟨(t, []), hfirst, rfl⟩

/-- A text is a type's exactly if its tokens derive the type. -/
theorem parse_eq_ok_iff {text : String} {t : BoundaryType} :
    parse enums text = .ok t ↔ ∃ ts, Token.tokenize text = .ok ts ∧ Derives enums ts t := by
  rw [parse]
  cases Token.tokenize text with
  | error c => exact ⟨fun h => (nomatch h), fun ⟨_, h, _⟩ => (nomatch h)⟩
  | ok ts =>
      rw [mapError_eq_ok, ofTokens_eq_ok_iff]
      exact ⟨fun h => ⟨ts, rfl, h⟩, fun ⟨_, hts, h⟩ => by cases hts; exact h⟩

/-- Texts are read as the grammar says, and reading comes to an end. -/
structure FollowsGrammar (enums : EnumTable) : Prop where
  /-- A text is read as a type exactly if its tokens derive the type. -/
  accepted : ∀ text t, parse enums text = .ok t ↔
    ∃ ts, Token.tokenize text = .ok ts ∧ Derives enums ts t
  /-- Every other text is refused as malformed. -/
  refused : ∀ text, (∀ ts t, Token.tokenize text = .ok ts → ¬Derives enums ts t) →
    ∃ fault, parse enums text = .error fault ∧ (Failure.typeText fault).kind = .malformed
  /-- The tokens derive no second type. -/
  unambiguous : ∀ ts t t', Derives enums ts t → Derives enums ts t' → t = t'
  /-- The calls of the readers to each other have one solution: they come to an end on every list
  of tokens. -/
  finishes : ∃! readers : Reader BoundaryType × Reader (List BoundaryType),
    Recurses enums readers.1 readers.2
  /-- The solution is what the bounded reader gives for any bound of more than the number of
  tokens, so the bound is never met. -/
  unbounded : ∀ type arguments, Recurses enums type arguments →
    ∀ ts depth, ts.length < depth → readType enums depth ts = type ts

/-- **The accepted texts.** Whatever the enums, a text is read as a type exactly if its tokens
derive the type in the grammar, and is refused otherwise. -/
theorem followsGrammar (enums : EnumTable) : FollowsGrammar enums where
  accepted := fun _ _ => parse_eq_ok_iff
  refused := by
    intro text hnone
    cases h : parse enums text with
    | ok t =>
        obtain ⟨ts, hts, ht⟩ := parse_eq_ok_iff.mp h
        exact absurd ht (hnone ts t hts)
    | error fault => exact ⟨fault, rfl, rfl⟩
  unambiguous := by
    intro ts t t' h h'
    have heq := (ofTokens_eq_ok_iff.mpr h).symm.trans (ofTokens_eq_ok_iff.mpr h')
    exact Except.ok.inj heq
  finishes := by
    refine ⟨(fun ts => readType enums (ts.length + 1) ts,
      fun ts => readArguments enums (ts.length + 2) ts), ?_, ?_⟩
    · exact recurses_iff.mpr ⟨fun _ => rfl, fun _ => rfl⟩
    · rintro ⟨type, arguments⟩ h
      obtain ⟨htype, harguments⟩ := recurses_iff.mp h
      exact Prod.ext (funext htype) (funext harguments)
  unbounded := fun _ _ h ts depth hdepth =>
    ((calls_readType enums).eq_of_length_lt h.calls depth depth).1 ts hdepth hdepth

end BoundaryType

end AbiBridge
