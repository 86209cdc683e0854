import AbiBridge.Proofs.Boundary.RoundTrip
import AbiBridge.Proofs.Manifest.Data
import AbiBridge.Proofs.Wrapper.Emission

/-!
Ordinals of enums.

An enum crosses as the ordinal of its variant. The wrapper decodes it in a match whose patterns and
bodies are counted separately and meet only when the match is written.

* `decodingArms`: the arms that decode an enum, each pattern with its body;
* `selected?`: the body that a match takes for an ordinal;
* `selected?_numberedArms`: along the arms, which number the variants from any number on;
* `appends_decodeEnum`: the decoding is written as the lines of its arms between those of the match;
* `decodesOrdinals_of_compile`: every enum that a wrapper takes is decoded exactly.
-/

namespace AbiBridge

open Emitter Outcome

/-! ### Arms and what they select -/

/-- An arm for each variant, its pattern the number of the variant. -/
def numberedArms (enumName : String) (variants : List String) (first : Nat) :
    List (String × String) :=
  (variants.zipIdx first).map fun (variant, k) => (toString k, enumName ++ "::" ++ variant)

/-- The arms that decode an enum: each pattern with its body. -/
def decodingArms (enumName : String) (variants : List String) : List (String × String) :=
  numberedArms enumName variants 0 ++ [("_", "std::process::abort()")]

/-- An arm as it is written. -/
def armText (arm : String × String) : String := arm.1 ++ " => " ++ arm.2 ++ ","

/-- Whether a pattern takes an ordinal: the wildcard takes them all, a number in decimal digits the
one that it is. -/
def fitsOrdinal (pattern : String) (ordinal : Nat) : Bool :=
  pattern == "_" || (pattern.toList.all Char.isDigit && pattern != "" &&
    Nat.ofDigitChars 10 pattern.toList 0 == ordinal)

/-- The body of the first arm whose pattern takes the ordinal. -/
def selected? (arms : List (String × String)) (ordinal : Nat) : Option String :=
  (arms.find? fun arm => fitsOrdinal arm.1 ordinal).map Prod.snd

/-- The digits of a number are read as it. -/
lemma ofDigitChars_toString (k : Nat) : Nat.ofDigitChars 10 (toString k).toList 0 = k := by
  rw [Nat.toString_eq_repr, Nat.toList_repr]
  exact Nat.ofDigitChars_ten_toDigits

lemma all_isDigit_toString (k : Nat) : (toString k).toList.all Char.isDigit = true := by
  rw [Nat.toString_eq_repr, Nat.toList_repr, List.all_eq_true]
  exact fun c hc => Nat.isDigit_of_mem_toDigits (by decide) (by decide) hc

lemma toString_ne_empty (k : Nat) : toString k ≠ "" := by
  intro h
  have hnil : (toString k).toList = [] := by rw [h]; rfl
  rw [Nat.toString_eq_repr, Nat.toList_repr] at hnil
  exact Nat.toDigits_ne_nil hnil

lemma toString_ne_underscore (k : Nat) : toString k ≠ "_" := by
  intro h
  have hdigits := all_isDigit_toString k
  rw [h] at hdigits
  exact absurd hdigits (by decide)

/-- A number takes no ordinal but itself. -/
lemma fitsOrdinal_toString (k ordinal : Nat) :
    fitsOrdinal (toString k) ordinal = (k == ordinal) := by
  rw [fitsOrdinal, beq_false_of_ne (toString_ne_underscore k), all_isDigit_toString,
    bne_iff_ne.mpr (toString_ne_empty k), ofDigitChars_toString]
  rfl

/-- From a number on, the arms select the variant as far behind the first one as the ordinal is
behind that number. -/
lemma selected?_numberedArms (enumName : String) (variants : List String) (first ordinal : Nat)
    (h : first ≤ ordinal) :
    selected? (numberedArms enumName variants first ++ [("_", "std::process::abort()")]) ordinal =
      some ((variants[ordinal - first]?).elim "std::process::abort()" (enumName ++ "::" ++ ·)) := by
  induction variants generalizing first with
  | nil => rfl
  | cons variant variants ih =>
      have hcons : numberedArms enumName (variant :: variants) first =
          (toString first, enumName ++ "::" ++ variant) ::
            numberedArms enumName variants (first + 1) := rfl
      rw [selected?, hcons, List.cons_append, List.find?_cons, fitsOrdinal_toString]
      by_cases hfirst : first = ordinal
      · rw [beq_iff_eq.mpr hfirst, hfirst, Nat.sub_self]
        rfl
      · rw [beq_false_of_ne hfirst]
        have hsub : ordinal - first = ordinal - (first + 1) + 1 := by omega
        rw [hsub, List.getElem?_cons_succ]
        exact ih (first + 1) (by omega)

lemma selected?_decodingArms (enumName : String) (variants : List String) (ordinal : Nat) :
    selected? (decodingArms enumName variants) ordinal =
      some ((variants[ordinal]?).elim "std::process::abort()" (enumName ++ "::" ++ ·)) :=
  selected?_numberedArms enumName variants 0 ordinal (Nat.zero_le ordinal)

lemma patterns_decodingArms (enumName : String) (variants : List String) :
    (decodingArms enumName variants).map Prod.fst =
      (List.range variants.length).map (fun k => toString k) ++ ["_"] := by
  rw [decodingArms, numberedArms, List.map_append, List.map_map, List.range_eq_range',
    ← List.zipIdx_map_snd, List.map_map]
  rfl

/-- The patterns are pairwise distinct, since different numbers are written differently. -/
lemma nodup_patterns (enumName : String) (variants : List String) :
    ((decodingArms enumName variants).map Prod.fst).Nodup := by
  rw [patterns_decodingArms, List.nodup_append']
  have hinjective : Function.Injective fun k : Nat => toString k := by
    intro j k h
    rw [← ofDigitChars_toString j, ← ofDigitChars_toString k]
    exact congrArg (fun s => Nat.ofDigitChars 10 (String.toList s) 0) h
  refine ⟨List.nodup_range.map hinjective, List.nodup_singleton _, ?_⟩
  rintro s hs hlast
  obtain ⟨k, -, rfl⟩ := List.mem_map.mp hs
  exact toString_ne_underscore k (List.mem_singleton.mp hlast)

/-- Variants that are told apart are selected by different ordinals. -/
lemma eq_of_selected?_eq {enumName : String} {variants : List String} (h : variants.Nodup)
    {i j : Nat} (hi : i < variants.length) (hj : j < variants.length)
    (hselected : selected? (decodingArms enumName variants) i =
      selected? (decodingArms enumName variants) j) : i = j := by
  rw [selected?_decodingArms, selected?_decodingArms, List.getElem?_eq_getElem hi,
    List.getElem?_eq_getElem hj] at hselected
  have hpaths : enumName ++ "::" ++ variants[i] = enumName ++ "::" ++ variants[j] :=
    Option.some.inj hselected
  exact (h.getElem_inj_iff).mp (String.append_right_inj _ |>.mp hpaths)

/-! ### Lines -/

/-- The decoding of an enum as it is written at a level. -/
def decodingLines (name enumName : String) (variants : List String) (level : Nat) : List String :=
  indented level ("let " ++ name ++ " = match " ++ name ++ " \x7b") ::
    ((decodingArms enumName variants).map (fun arm => indented (level + 1) (armText arm)) ++
      [indented level "\x7d;"])

lemma length_decodingLines (name enumName : String) (variants : List String) (level : Nat) :
    (decodingLines name enumName variants level).length = variants.length + 3 := by
  simp [decodingLines, decodingArms, numberedArms]

/-- The patterns of arms go with their bodies. -/
lemma arms_of_pairs (arms : List (String × String)) :
    Arms (arms.map Prod.fst) (arms.map fun arm => .arm arm.2) (arms.map armText) := by
  induction arms with
  | nil => exact .nil
  | cons arm arms ih => exact .arm arm.1 arm.2 ih

lemma decodeEnum_eq (name enumName : String) (variants : List String) :
    decodeEnum name enumName variants =
      .openMatch name ((decodingArms enumName variants).map Prod.fst) (some name) ::
        (decodingArms enumName variants).map (fun arm => .arm arm.2) ++ [.closeScope] := by
  have hbodies : variants.map (fun v => Statement.arm (enumName ++ "::" ++ v)) =
      (numberedArms enumName variants 0).map fun arm => .arm arm.2 := by
    have hfirst := List.zipIdx_map_fst 0 variants
    conv_lhs => rw [← hfirst]
    rw [numberedArms, List.map_map, List.map_map]
    rfl
  rw [decodeEnum, hbodies, patterns_decodingArms, decodingArms, List.map_append]
  simp only [List.cons_append, List.append_assoc, List.map_cons, List.map_nil, List.nil_append]

/-- Wherever a scope is open, the decoding is written without a fault as its lines. -/
lemma appends_decodeEnum {name : String} (hname : name ≠ "") (enumName : String)
    (variants : List String) (e : Emitter) (he : e.frames ≠ []) :
    Yields (Statement.emitAll (decodeEnum name enumName variants)) e
      (decodingLines name enumName variants e.depth) e.frames := by
  have hwritten := @appends_match name _ (some name) _ _
    (arms_of_pairs (decodingArms enumName variants)) e he
  have hheader : MatchScope.header ⟨name, (decodingArms enumName variants).map Prod.fst,
      some name, 0, false⟩ = "let " ++ name ++ " = match " ++ name ++ " \x7b" := if_neg hname
  have htrailer : MatchScope.trailer ⟨name, (decodingArms enumName variants).map Prod.fst,
      some name, 0, false⟩ = "\x7d;" := if_pos (bne_iff_ne.mpr hname)
  rw [hheader, htrailer, List.map_cons, List.map_append, map_indented_map_indented,
    List.map_map] at hwritten
  rw [decodeEnum_eq]
  exact hwritten

/-! ### Wrappers -/

/-- An argument is rebuilt by statements of the body. -/
lemma Assembly.steps_mem {d : Descriptor} (a : Assembly d) {x : String} {t : BoundaryType}
    (hx : (x, t) ∈ d.args) : ∃ r, t.rebuild x = .ok r ∧ r.steps <:+: a.wrapper.body := by
  obtain ⟨r, hr, hrebuilt⟩ := Listwise.exists_of_mem_right a.args_eq.flip hx
  obtain ⟨front, back, hargs⟩ := List.append_of_mem hr
  refine ⟨r, hrebuilt, a.receiver.steps ++ front.flatMap Rebuilt.steps,
    back.flatMap Rebuilt.steps ++ (a.called ++ a.stores ++ a.releases ++ a.last), ?_⟩
  rw [Assembly.wrapper, Assembly.steps, hargs, List.flatMap_append, List.flatMap_cons]
  simp only [List.append_assoc]

/-- How the ordinal of an enum is decoded that a wrapper takes as an argument. -/
structure DecodesOrdinals (w : Wrapper) (x enumName : String) (variants : List String) : Prop where
  /-- There is something to decode to. -/
  nonempty : variants ≠ []
  /-- The statements of the decoding follow each other in the body. -/
  inside : decodeEnum x enumName variants <:+: w.body
  /-- Wherever a scope is open they are written without a fault, one line for the match, one for
  each arm, and one for the end. -/
  written : ∀ e : Emitter, e.frames ≠ [] →
    Yields (Statement.emitAll (decodeEnum x enumName variants)) e
      (decodingLines x enumName variants e.depth) e.frames
  /-- These are three lines more than there are variants. -/
  count : ∀ level, (decodingLines x enumName variants level).length = variants.length + 3
  /-- No pattern stands in two arms. -/
  distinct : ((decodingArms enumName variants).map Prod.fst).Nodup
  /-- The ordinal of a variant selects it. -/
  selects : ∀ k v, variants[k]? = some v →
    selected? (decodingArms enumName variants) k = some (enumName ++ "::" ++ v)
  /-- Every other ordinal aborts. -/
  aborts : ∀ k, variants.length ≤ k →
    selected? (decodingArms enumName variants) k = some "std::process::abort()"
  /-- An enum that is read from a text of a manifest is one of those it declares. -/
  declared : ∀ (m : Manifest) text,
    BoundaryType.parse m.enums text = .ok (.enum enumName variants) →
      (enumName, variants) ∈ m.enums
  /-- If a manifest declares the enum, different ordinals select different variants. -/
  injective : ∀ v m, Manifest.ofValue v = .ok m → (enumName, variants) ∈ m.enums →
    ∀ i < variants.length, ∀ j < variants.length,
      selected? (decodingArms enumName variants) i =
        selected? (decodingArms enumName variants) j → i = j

/-! ### Manifests -/

/-- An enum that is read is declared. -/
lemma BoundaryType.mem_enums_of_parse {enums : EnumTable} {text enumName : String}
    {variants : List String} (h : parse enums text = .ok (.enum enumName variants)) :
    (enumName, variants) ∈ enums := by
  have hdenotes : ∀ {path params}, Denotes enums path params (.enum enumName variants) →
      (enumName, variants) ∈ enums := by
    intro path params hdenoted
    cases hdenoted with
    | enum _ _ hdeclared =>
        obtain ⟨front, back, rfl, -⟩ := List.lookup_eq_some_iff.mp hdeclared
        exact List.mem_append_right front List.mem_cons_self
  obtain ⟨ts, -, hderived⟩ := parse_eq_ok_iff.mp h
  cases hderived with
  | path hdenoted => exact hdenotes hdenoted
  | applied _ hdenoted => exact hdenotes hdenoted

/-- **Exact decoding.** Every enum that a wrapper takes as an argument is decoded by its ordinal:
the match is written without a fault wherever a scope is open, it has an arm for each variant under
its number and one that aborts, and for the enums of a manifest no two ordinals decode alike. -/
theorem decodesOrdinals_of_compile (d : Descriptor) (w : Wrapper) (h : d.compile = .ok w)
    {x enumName : String} {variants : List String} (hx : (x, .enum enumName variants) ∈ d.args) :
    DecodesOrdinals w x enumName variants := by
  have hacceptable := Descriptor.acceptable_of_compile h
  have hname : x ≠ "" := by
    rintro rfl
    have hword : Name.isIdentifier "" = true := (hacceptable.argNames _ hx).1.identifier
    exact absurd hword (by decide)
  obtain ⟨a, rfl⟩ := Descriptor.exists_assembly h
  refine ⟨?_, ?_, appends_decodeEnum hname enumName variants,
    length_decodingLines x enumName variants, nodup_patterns _ _, fun k v hk => ?_,
    fun k hk => ?_, fun m text => BoundaryType.mem_enums_of_parse,
    fun v m hm hmem i hi j hj => eq_of_selected?_eq (Manifest.nodup_of_mem_enums hm hmem) hi hj⟩
  · cases (hacceptable.argTypes _ hx).2 with
    | simple hsimple => cases hsimple
    | enum _ hnonempty => exact hnonempty
  · obtain ⟨r, hr, hinside⟩ := a.steps_mem hx
    cases hr
    exact hinside
  · rw [selected?_decodingArms, hk]
    rfl
  · rw [selected?_decodingArms, List.getElem?_eq_none hk]
    rfl

/-- The enum of a method is decoded. -/
theorem decodesOrdinals_exchange :
    ∃ w, Descriptor.exchange.compile = .ok w ∧
      ("mode", .enum "Mode" ["Fast", "Slow"]) ∈ Descriptor.exchange.args ∧
      DecodesOrdinals w "mode" "Mode" ["Fast", "Slow"] :=
  ⟨_, rfl, by decide, decodesOrdinals_of_compile Descriptor.exchange _ rfl (by decide)⟩

end AbiBridge
