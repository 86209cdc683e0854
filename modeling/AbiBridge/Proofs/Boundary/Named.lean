import AbiBridge.Boundary.Encoding
import AbiBridge.Boundary.Placeholder
import AbiBridge.Proofs.Listwise
import AbiBridge.Proofs.Name
import AbiBridge.Wrapper.Validation

/-!
Types all of whose names may be spliced.

`BoundaryType.Named` holds of the types of the known family in which, at any depth, every struct
has a path for a name that is not the placeholder, and every enum a path and names for variants.

* `ind`: induction over types, through the arguments of structs;
* `named_iff`: these are the types that pass the search for the placeholder and the check of
  names;
* `Named.exists_native`: such a type has a native text;
* `Named.resolveSelf_eq`: and no placeholder;
* `resolveSelf_resolveSelf`: once the placeholders are replaced, there are none.
-/

namespace AbiBridge

open Outcome

namespace BoundaryType

/-- A property holds of every type once it is inherited from the parts of a type. -/
@[elab_as_elim]
theorem ind {P : BoundaryType → Prop}
    (primitive : ∀ name, P (.primitive name))
    (struct : ∀ name params, (∀ t ∈ params, P t) → P (.struct name params))
    (sharedRef : ∀ inner, P inner → P (.sharedRef inner))
    (mutRef : ∀ inner, P inner → P (.mutRef inner))
    (sequence : ∀ elem, P elem → P (.sequence elem))
    (enum : ∀ name variants, P (.enum name variants))
    (unknown : P .unknown) (t : BoundaryType) : P t :=
  BoundaryType.rec (motive_1 := P) (motive_2 := fun ts => ∀ t ∈ ts, P t)
    primitive struct sharedRef mutRef sequence enum unknown
    (fun _ h => absurd h List.not_mem_nil)
    (fun _ _ hhead htail => List.forall_mem_cons.mpr ⟨hhead, htail⟩)
    t

/-- The types of the known family all of whose names may be spliced, and none of which is the
placeholder. -/
inductive Named : BoundaryType → Prop where
  | primitive (name : String) : Named (.primitive name)
  | struct {name : String} {params : List BoundaryType} (path : Name.IsPath name)
      (notSelf : name ≠ selfPlaceholder) (params_named : ∀ t ∈ params, Named t) :
      Named (.struct name params)
  | sharedRef {inner : BoundaryType} (named : Named inner) : Named (.sharedRef inner)
  | mutRef {inner : BoundaryType} (named : Named inner) : Named (.mutRef inner)
  | sequence {elem : BoundaryType} (named : Named elem) : Named (.sequence elem)
  | enum {name : String} {variants : List String} (path : Name.IsPath name)
      (variants_named : ∀ v ∈ variants, Name.IsName v) : Named (.enum name variants)

/-! ### Walks over generic arguments -/

lemma anyMentionsSelf_eq_ok_false_iff (ts : List BoundaryType) :
    anyMentionsSelf ts = .ok false ↔ ∀ t ∈ ts, t.mentionsSelf = .ok false := by
  induction ts with
  | nil => exact ⟨fun _ t ht => absurd ht List.not_mem_nil, fun _ => rfl⟩
  | cons t ts ih =>
      rw [anyMentionsSelf, bind_eq_ok, List.forall_mem_cons, ← ih]
      constructor
      · rintro ⟨b, hb, h⟩
        cases b with
        | true => cases pure_eq_ok.mp h
        | false => exact ⟨hb, h⟩
      · exact fun h => ⟨false, h.1, h.2⟩

lemma checkNamesAll_eq_ok_iff (ts : List BoundaryType) :
    checkNamesAll ts = .ok () ↔ ∀ t ∈ ts, t.checkNames = .ok () := by
  induction ts with
  | nil => exact ⟨fun _ t ht => absurd ht List.not_mem_nil, fun _ => rfl⟩
  | cons t ts ih => rw [checkNamesAll, bind_unit_eq_ok, List.forall_mem_cons, ih]

lemma nativeAll_eq_mapM (ts : List BoundaryType) : nativeAll ts = ts.mapM native := by
  induction ts with
  | nil => rfl
  | cons t ts ih => rw [nativeAll, List.mapM_cons, ih]

/-! ### The checks -/

/-- The two walks over a type together accept exactly the named ones. -/
theorem named_iff (t : BoundaryType) :
    t.Named ↔ t.mentionsSelf = .ok false ∧ t.checkNames = .ok () := by
  induction t using ind with
  | primitive name => exact ⟨fun _ => ⟨rfl, rfl⟩, fun _ => .primitive name⟩
  | struct name params ih =>
      have hparams : (∀ t ∈ params, t.Named) ↔
          (∀ t ∈ params, t.mentionsSelf = .ok false) ∧ ∀ t ∈ params, t.checkNames = .ok () := by
        rw [← forall₂_and]
        exact forall₂_congr ih
      rw [mentionsSelf, checkNames, bind_unit_eq_ok, Name.checkPath_eq_ok_iff,
        checkNamesAll_eq_ok_iff]
      by_cases hself : name = selfPlaceholder
      · rw [if_pos hself]
        exact ⟨fun h => by cases h with | struct _ hne _ => exact absurd hself hne,
          fun h => (nomatch h.1)⟩
      · rw [if_neg hself, anyMentionsSelf_eq_ok_false_iff]
        constructor
        · intro h
          cases h with
          | struct hpath _ hall => exact ⟨(hparams.mp hall).1, hpath, (hparams.mp hall).2⟩
        · exact fun h => .struct h.2.1 hself (hparams.mpr ⟨h.1, h.2.2⟩)
  | sharedRef inner ih =>
      rw [mentionsSelf, checkNames, ← ih]
      exact ⟨fun h => by cases h; assumption, .sharedRef⟩
  | mutRef inner ih =>
      rw [mentionsSelf, checkNames, ← ih]
      exact ⟨fun h => by cases h; assumption, .mutRef⟩
  | sequence elem ih =>
      rw [mentionsSelf, checkNames, ← ih]
      exact ⟨fun h => by cases h; assumption, .sequence⟩
  | enum name variants =>
      rw [mentionsSelf, checkNames, bind_unit_eq_ok, Name.checkPath_eq_ok_iff, forM_eq_ok]
      simp only [Name.check_eq_ok_iff]
      constructor
      · intro h
        cases h with
        | enum hpath hvariants => exact ⟨rfl, hpath, hvariants⟩
      · exact fun h => .enum h.2.1 h.2.2
  | unknown => exact ⟨fun h => (nomatch h), fun h => (nomatch h.1)⟩

/-! ### Native text -/

/-- The generic arguments of a struct have native texts if each of them has. -/
lemma exists_nativeAll {ts : List BoundaryType} (h : ∀ t ∈ ts, ∃ s, t.native = .ok s) :
    ∃ texts, nativeAll ts = .ok texts := by
  rw [nativeAll_eq_mapM]
  exact exists_mapM_eq_ok h

/-- Rendering fails on types of no known family alone, and none is named. -/
theorem Named.exists_native {t : BoundaryType} (h : t.Named) : ∃ text, t.native = .ok text := by
  induction h with
  | primitive name => exact ⟨name, rfl⟩
  | @struct name params _ _ _ ih =>
      obtain ⟨texts, htexts⟩ := exists_nativeAll ih
      exact ⟨_, by rw [native, htexts]; rfl⟩
  | sharedRef _ ih =>
      obtain ⟨text, htext⟩ := ih
      exact ⟨_, by rw [native, htext]; rfl⟩
  | mutRef _ ih =>
      obtain ⟨text, htext⟩ := ih
      exact ⟨_, by rw [native, htext]; rfl⟩
  | sequence _ ih =>
      obtain ⟨text, htext⟩ := ih
      exact ⟨_, by rw [native, htext]; rfl⟩
  | @enum name variants _ _ => exact ⟨name, rfl⟩

/-! ### The placeholder -/

/-- A walk that changes nothing at any of the types. -/
lemma resolveSelfAll_eq {ts : List BoundaryType} {owner : BoundaryType}
    (h : ∀ t ∈ ts, t.resolveSelf owner = .ok t) : resolveSelfAll ts owner = .ok ts := by
  induction ts with
  | nil => rfl
  | cons t ts ih =>
      obtain ⟨ht, hts⟩ := List.forall_mem_cons.mp h
      rw [resolveSelfAll, ht, ih hts]
      rfl

lemma resolveSelfAll_eq_ok_iff {ts ts' : List BoundaryType} {owner : BoundaryType} :
    resolveSelfAll ts owner = .ok ts' ↔
      List.Forall₂ (fun t t' => t.resolveSelf owner = .ok t') ts ts' := by
  rw [← mapM_eq_ok]
  induction ts generalizing ts' with
  | nil => exact Iff.rfl
  | cons t ts ih =>
      rw [resolveSelfAll, List.mapM_cons, bind_eq_ok, bind_eq_ok]
      simp only [bind_eq_ok, ih]

/-- A type that does not mention the placeholder is left as it is. -/
theorem resolveSelf_of_mentionsSelf {t : BoundaryType} (h : t.mentionsSelf = .ok false)
    (owner : BoundaryType) : t.resolveSelf owner = .ok t := by
  induction t using ind with
  | primitive name => rfl
  | struct name params ih =>
      rw [mentionsSelf] at h
      split at h
      · cases h
      · next hself =>
        rw [anyMentionsSelf_eq_ok_false_iff] at h
        rw [resolveSelf, if_neg fun hplace => hself hplace.1,
          resolveSelfAll_eq fun t ht => ih t ht (h t ht)]
        rfl
  | sharedRef inner ih =>
      rw [resolveSelf, ih h]
      rfl
  | mutRef inner ih =>
      rw [resolveSelf, ih h]
      rfl
  | sequence elem ih =>
      rw [resolveSelf, ih h]
      rfl
  | enum name variants => rfl
  | unknown => cases h

/-- Where the owner does not mention the placeholder, none is left to replace. -/
theorem resolveSelf_resolveSelf {t t' owner : BoundaryType}
    (howner : owner.mentionsSelf = .ok false) (h : t.resolveSelf owner = .ok t') :
    t'.resolveSelf owner = .ok t' := by
  induction t using ind generalizing t' with
  | primitive name =>
      cases h
      rfl
  | struct name params ih =>
      rw [resolveSelf] at h
      split at h
      · cases h
        exact resolveSelf_of_mentionsSelf howner _
      · next hplace =>
        obtain ⟨params', hparams, h⟩ := bind_eq_ok.mp h
        cases h
        have hall := resolveSelfAll_eq_ok_iff.mp hparams
        have hplace' : ¬(name = selfPlaceholder ∧ params' = []) := by
          rintro ⟨hname, rfl⟩
          exact hplace ⟨hname, List.forall₂_nil_right_iff.mp hall⟩
        have hkept : resolveSelfAll params' owner = .ok params' := by
          refine resolveSelfAll_eq fun p' hp' => ?_
          obtain ⟨p, hp, hpp'⟩ := Listwise.exists_of_mem_right hall hp'
          exact ih p hp hpp'
        rw [resolveSelf, if_neg hplace', hkept]
        rfl
  | sharedRef inner ih =>
      obtain ⟨inner', hinner, h⟩ := bind_eq_ok.mp h
      cases h
      rw [resolveSelf, ih hinner]
      rfl
  | mutRef inner ih =>
      obtain ⟨inner', hinner, h⟩ := bind_eq_ok.mp h
      cases h
      rw [resolveSelf, ih hinner]
      rfl
  | sequence elem ih =>
      obtain ⟨elem', helem, h⟩ := bind_eq_ok.mp h
      cases h
      rw [resolveSelf, ih helem]
      rfl
  | enum name variants =>
      cases h
      rfl
  | unknown => cases h

/-- In a named type there is no placeholder to replace. -/
theorem Named.resolveSelf_eq {t : BoundaryType} (h : t.Named) (owner : BoundaryType) :
    t.resolveSelf owner = .ok t :=
  resolveSelf_of_mentionsSelf ((named_iff t).mp h).1 owner

end BoundaryType

end AbiBridge
