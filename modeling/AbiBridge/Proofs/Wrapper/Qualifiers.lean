import AbiBridge.Proofs.Wrapper.Acceptance
import Mathlib.Data.List.Chain
import Mathlib.Data.List.Perm.Basic

/-!
Qualifiers in paths.

The keywords `crate`, `self` and `super` qualify a path from its front. The checks of a descriptor
look at each segment by itself, so they keep all other keywords out of a path, and all keywords out
of its last segment, but let a qualifier stand at any place before the last.

* `Name.QualifiersLead`: the rule of the native language for qualifiers;
* `Name.qualifiersLead_iff`: it compares each segment with the one before;
* `Name.Reordered`, `IsPath.reordered`: the segments before the last may change places;
* `Descriptor.Acceptable.mapPaths`: so they may in all the paths of a descriptor;
* `qualifiers_of_compile`: what the paths of a descriptor with a wrapper keep of the rule.
-/

namespace AbiBridge

open Outcome

/-! ### Paths -/

namespace Name

/-- Qualifiers stand in front of all other segments, `crate` and `self` in the first place, and the
last segment is no keyword. -/
structure QualifiersLead (path : String) : Prop where
  run : (segments path).Pairwise fun s s' => s' ∈ pathQualifiers → s ∈ pathQualifiers
  first : ∀ s ∈ (segments path).tail, s ≠ "crate" ∧ s ≠ "self"
  last : baseName path ∉ keywords

/-- Two paths that differ in the order of the segments before the last. -/
def Reordered (path path' : String) : Prop :=
  ∃ front front' last, segments path = front ++ [last] ∧ segments path' = front' ++ [last] ∧
    front'.Perm front

/-- A keyword in a path is a qualifier. -/
lemma IsPath.mem_pathQualifiers {path s : String} (h : IsPath path) (hs : s ∈ segments path)
    (hkeyword : s ∈ keywords) : s ∈ pathQualifiers := by
  obtain ⟨front, last, hsegments, hlast, hfront⟩ := h
  rw [hsegments, List.mem_append, List.mem_singleton] at hs
  rcases hs with hs | rfl
  · exact (hfront s hs).resolve_left fun hname => hname.notKeyword hkeyword
  · exact absurd hkeyword hlast.notKeyword

/-- A segment that is no qualifier, or goes on a run of them. -/
def GoesOn (s s' : String) : Prop := s' ∈ pathQualifiers → s ∈ pathQualifiers ∧ s' = "super"

instance : IsTrans String GoesOn where
  trans _ _ _ h h' := fun hmem =>
    have hs := h' hmem
    ⟨(h hs.1).1, hs.2⟩

/-- It is enough to compare each segment with the one before. -/
lemma qualifiersLead_iff {path : String} :
    QualifiersLead path ↔ (segments path).IsChain GoesOn ∧ baseName path ∉ keywords := by
  rw [List.isChain_iff_pairwise]
  constructor
  · intro h
    refine ⟨?_, h.last⟩
    obtain ⟨s, l, hcons⟩ := List.exists_cons_of_ne_nil (segments_ne_nil path)
    have hrun := h.run
    have hfirst := h.first
    rw [hcons] at hrun hfirst ⊢
    rw [List.tail_cons] at hfirst
    have hsuper : ∀ t ∈ l, t ∈ pathQualifiers → t = "super" := by
      intro t ht hmem
      simpa [pathQualifiers, hfirst t ht] using hmem
    rw [List.pairwise_cons] at hrun ⊢
    refine ⟨fun t ht hmem => ⟨hrun.1 t ht hmem, hsuper t ht hmem⟩, ?_⟩
    exact hrun.2.imp_of_mem fun _ ht hle hmem => ⟨hle hmem, hsuper _ ht hmem⟩
  · rintro ⟨hchain, hlast⟩
    refine ⟨hchain.imp fun h hmem => (h hmem).1, fun t ht => ?_, hlast⟩
    have hcrate : "crate" ∈ pathQualifiers ∧ "crate" ≠ "super" := by decide
    have hself : "self" ∈ pathQualifiers ∧ "self" ≠ "super" := by decide
    obtain ⟨s, l, hcons⟩ := List.exists_cons_of_ne_nil (segments_ne_nil path)
    rw [hcons, List.pairwise_cons] at hchain
    rw [hcons, List.tail_cons] at ht
    constructor
    · rintro rfl
      exact hcrate.2 (hchain.1 _ ht hcrate.1).2
    · rintro rfl
      exact hself.2 (hchain.1 _ ht hself.1).2

/-- A path of one or two segments has no place for a qualifier but the first. -/
lemma IsPath.qualifiersLead {path : String} (h : IsPath path)
    (hshort : (segments path).length ≤ 2) : QualifiersLead path := by
  have hlast := h.isName_baseName.notKeyword
  have hqualifiers : ∀ s ∈ pathQualifiers, s ∈ keywords := by decide
  refine qualifiersLead_iff.mpr ⟨?_, hlast⟩
  obtain ⟨front, last, hsegments, -, -⟩ := h
  rw [baseName_eq hsegments] at hlast
  rw [hsegments, List.length_append, List.length_singleton] at hshort
  rw [hsegments]
  match front with
  | [] => exact List.isChain_singleton _
  | [s] => exact List.isChain_pair.mpr fun hmem => absurd (hqualifiers _ hmem) hlast

/-- A path stays one when the segments before the last change places. -/
lemma IsPath.reordered {path path' : String} (h : IsPath path) (hpath : Reordered path path') :
    IsPath path' := by
  obtain ⟨front, front', last, hsegments, hsegments', hperm⟩ := hpath
  obtain ⟨front₀, last₀, hsegments₀, hlast, hfront⟩ := h
  rw [hsegments] at hsegments₀
  obtain ⟨rfl, heq⟩ := List.append_inj' hsegments₀ rfl
  rw [← List.singleton_inj.mp heq] at hlast
  exact ⟨front', last, hsegments', hlast, fun s hs => hfront s (hperm.mem_iff.mp hs)⟩

lemma IsPath.ne_selfPlaceholder {path : String} (h : IsPath path) : path ≠ selfPlaceholder := by
  rintro rfl
  exact h.isName_baseName.notKeyword (by decide)

end Name

/-! ### The paths of a type -/

namespace BoundaryType

mutual

/-- The paths in a type, at any depth: the names of structs and enums. -/
def paths : BoundaryType → List String
  | struct name params => name :: pathsAll params
  | sharedRef inner | mutRef inner => paths inner
  | sequence elem => paths elem
  | enum name _ => [name]
  | primitive _ | unknown => []

/-- The paths in a list of types. -/
def pathsAll : List BoundaryType → List String
  | [] => []
  | t :: ts => paths t ++ pathsAll ts

end

mutual

/-- The type with other paths for its own. -/
def mapPaths (f : String → String) : BoundaryType → BoundaryType
  | struct name params => struct (f name) (mapPathsAll f params)
  | sharedRef inner => sharedRef (mapPaths f inner)
  | mutRef inner => mutRef (mapPaths f inner)
  | sequence elem => sequence (mapPaths f elem)
  | enum name variants => enum (f name) variants
  | primitive name => primitive name
  | unknown => unknown

/-- The types of a list with other paths for their own. -/
def mapPathsAll (f : String → String) : List BoundaryType → List BoundaryType
  | [] => []
  | t :: ts => mapPaths f t :: mapPathsAll f ts

end

lemma mem_pathsAll {ts : List BoundaryType} {path : String} :
    path ∈ pathsAll ts ↔ ∃ t ∈ ts, path ∈ t.paths := by
  induction ts with
  | nil => simp [pathsAll]
  | cons t ts ih => rw [pathsAll, List.mem_append, ih, List.exists_mem_cons_iff]

lemma mapPathsAll_eq (f : String → String) (ts : List BoundaryType) :
    mapPathsAll f ts = ts.map (mapPaths f) := by
  induction ts with
  | nil => rfl
  | cons t ts ih => rw [mapPathsAll, ih, List.map_cons]

/-- The paths of a named type may all be spliced. -/
lemma Named.isPath {t : BoundaryType} (h : t.Named) : ∀ path ∈ t.paths, Name.IsPath path := by
  induction h with
  | primitive name => exact fun _ hpath => absurd hpath List.not_mem_nil
  | struct hname _ _ ih =>
      rw [paths]
      refine List.forall_mem_cons.mpr ⟨hname, fun path hpath => ?_⟩
      obtain ⟨t, ht, hpath⟩ := mem_pathsAll.mp hpath
      exact ih t ht path hpath
  | sharedRef _ ih => exact ih
  | mutRef _ ih => exact ih
  | sequence _ ih => exact ih
  | enum hname _ => exact List.forall_mem_singleton.mpr hname

variable {f : String → String}

/-- Other orders of segments make no name illegal. -/
lemma Named.mapPaths {t : BoundaryType} (h : t.Named)
    (hf : ∀ path ∈ t.paths, Name.Reordered path (f path)) : (t.mapPaths f).Named := by
  induction h with
  | primitive name => exact .primitive name
  | struct hname _ _ ih =>
      rw [paths, List.forall_mem_cons] at hf
      have hname := hname.reordered hf.1
      rw [BoundaryType.mapPaths, mapPathsAll_eq]
      refine .struct hname hname.ne_selfPlaceholder (List.forall_mem_map.mpr fun t ht => ?_)
      exact ih t ht fun path hpath => hf.2 path (mem_pathsAll.mpr ⟨t, ht, hpath⟩)
  | sharedRef _ ih => exact .sharedRef (ih hf)
  | mutRef _ ih => exact .mutRef (ih hf)
  | sequence _ ih => exact .sequence (ih hf)
  | enum hname hvariants =>
      rw [paths, List.forall_mem_singleton] at hf
      exact .enum (hname.reordered hf) hvariants

lemma IsSimple.mapPaths {t : BoundaryType} (h : t.IsSimple) : (t.mapPaths f).IsSimple := by
  cases h with
  | primitive name => exact .primitive name
  | struct name params => exact .struct (f name) _

lemma IsArgument.mapPaths {t : BoundaryType} (h : t.IsArgument) : (t.mapPaths f).IsArgument := by
  cases h with
  | simple hsimple => exact .simple hsimple.mapPaths
  | sharedRef name params => exact .sharedRef (f name) _
  | mutRef name params => exact .mutRef (f name) _
  | sequence name => exact .sequence name
  | enum name hvariants => exact .enum (f name) hvariants

lemma IsResult.mapPaths {fallible : Bool} {t : BoundaryType} (h : t.IsResult fallible) :
    (t.mapPaths f).IsResult fallible := by
  cases h with
  | simple hsimple => exact .simple hsimple.mapPaths
  | sharedRef hsimple => exact .sharedRef hsimple.mapPaths
  | mutRef hsimple => exact .mutRef hsimple.mapPaths
  | sequence hprotocol hsimple => exact .sequence hprotocol hsimple.mapPaths

end BoundaryType

/-! ### The paths of a descriptor -/

namespace Descriptor

/-- The paths in the owner, the arguments and the result, at any depth. -/
def paths (d : Descriptor) : List String :=
  BoundaryType.pathsAll (d.owner.toList ++ d.args.map Prod.snd ++ d.ret.toList)

/-- The descriptor with other paths for its own. -/
def mapPaths (f : String → String) (d : Descriptor) : Descriptor :=
  { d with
    owner := d.owner.map (BoundaryType.mapPaths f)
    args := d.args.map fun a => (a.1, a.2.mapPaths f)
    ret := d.ret.map (BoundaryType.mapPaths f) }

lemma slotNames_mapPaths (f : String → String) (a : String × BoundaryType) :
    slotNames (a.1, a.2.mapPaths f) = slotNames a := by
  obtain ⟨name, t⟩ := a
  cases t <;> rfl

namespace Acceptable

variable {d : Descriptor} {f : String → String}

/-- The types of an acceptable descriptor are named. -/
lemma forall_named (h : d.Acceptable) :
    ∀ t ∈ d.owner.toList ++ d.args.map Prod.snd ++ d.ret.toList, t.Named := by
  simp only [List.forall_mem_append, List.forall_mem_map, Option.mem_toList]
  exact ⟨⟨fun t ht => (h.owner t ht).2, fun a ha => (h.argTypes a ha).1⟩,
    fun t ht => (h.result t ht).1⟩

lemma isPath (h : d.Acceptable) : ∀ path ∈ d.paths, Name.IsPath path := by
  intro path hpath
  obtain ⟨t, ht, hpath⟩ := BoundaryType.mem_pathsAll.mp hpath
  exact (h.forall_named t ht).isPath path hpath

/-- A descriptor stays acceptable when the segments of its paths before the last change places. -/
theorem mapPaths (h : d.Acceptable) (hf : ∀ path ∈ d.paths, Name.Reordered path (f path)) :
    (d.mapPaths f).Acceptable := by
  have hnamed : ∀ t ∈ d.owner.toList ++ d.args.map Prod.snd ++ d.ret.toList,
      (t.mapPaths f).Named := fun t ht =>
    (h.forall_named t ht).mapPaths fun path hpath =>
      hf path (BoundaryType.mem_pathsAll.mpr ⟨t, ht, hpath⟩)
  simp only [List.forall_mem_append, List.forall_mem_map, Option.mem_toList] at hnamed
  obtain ⟨⟨howner, hargs⟩, hret⟩ := hnamed
  constructor
  case funcName => exact h.funcName
  case exportName => exact h.exportName
  case owner =>
    intro t' ht'
    obtain ⟨t, ht, rfl⟩ := Option.map_eq_some_iff.mp ht'
    obtain ⟨⟨name, params, rfl⟩, -⟩ := h.owner t ht
    exact ⟨⟨f name, _, rfl⟩, howner _ ht⟩
  case receiver => exact fun hr hnone => h.receiver hr (Option.map_eq_none_iff.mp hnone)
  case argNames => exact List.forall_mem_map.mpr h.argNames
  case distinct =>
    rw [Descriptor.mapPaths, List.flatMap_map]
    simp only [slotNames_mapPaths]
    exact h.distinct
  case argTypes =>
    exact List.forall_mem_map.mpr fun a ha => ⟨hargs a ha, (h.argTypes a ha).2.mapPaths⟩
  case result =>
    intro t' ht'
    obtain ⟨t, ht, rfl⟩ := Option.map_eq_some_iff.mp ht'
    exact ⟨hret t ht, (h.result t ht).2.mapPaths⟩

end Acceptable

end Descriptor

/-! ### What is kept of the rule -/

/-- What holds of the qualifiers in the paths of a descriptor. -/
structure KeepsQualifiers (d : Descriptor) : Prop where
  /-- The last segment of a path is no keyword, -/
  last : ∀ path ∈ d.paths, Name.baseName path ∉ Name.keywords
  /-- and no keyword stands before it but a qualifier. -/
  others : ∀ path ∈ d.paths, ∀ s ∈ Name.segments path, s ∈ Name.keywords →
    s ∈ Name.pathQualifiers
  /-- The qualifiers of a path lead exactly if each of them that is not the first segment is a
  `super` directly behind another one, -/
  leads : ∀ path ∈ d.paths,
    Name.QualifiersLead path ↔ (Name.segments path).IsChain Name.GoesOn
  /-- which is so in a path of one or two segments. -/
  short : ∀ path ∈ d.paths, (Name.segments path).length ≤ 2 → Name.QualifiersLead path
  /-- Nothing more is asked: all the segments before the last may change places. -/
  free : ∀ f, (∀ path ∈ d.paths, Name.Reordered path (f path)) →
    ∃ w, (d.mapPaths f).compile = .ok w

/-- **Qualifiers.** In a descriptor that has a wrapper no path ends in a keyword, and no keyword but
the qualifiers stands in one; where these stand before the last segment makes no difference. -/
theorem qualifiers_of_compile (d : Descriptor) (w : Wrapper) (h : d.compile = .ok w) :
    KeepsQualifiers d := by
  have hd := Descriptor.acceptable_of_compile h
  constructor
  case last => exact fun path hpath => (hd.isPath path hpath).isName_baseName.notKeyword
  case others => exact fun path hpath s hs => (hd.isPath path hpath).mem_pathQualifiers hs
  case leads =>
    intro path hpath
    rw [Name.qualifiersLead_iff, and_iff_left (hd.isPath path hpath).isName_baseName.notKeyword]
  case short => exact fun path hpath => (hd.isPath path hpath).qualifiersLead
  case free =>
    exact fun f hf => (Descriptor.exists_compile_iff_acceptable _).mpr (hd.mapPaths hf)

/-- A method whose types have paths of several segments, one with a qualifier that does not lead. -/
def Descriptor.reset : Descriptor where
  funcName := "reset"
  owner := some (.struct "crate::net::Conn" [])
  receiver := .refMut
  args := [("mode", .enum "super::super::Mode" ["Fast", "Slow"]),
    ("other", .sharedRef (.struct "Pool" [.struct "net::crate::Conn" []]))]
  fallible := true

theorem qualifiers_reset :
    ∃ w, Descriptor.reset.compile = .ok w ∧ KeepsQualifiers Descriptor.reset :=
  ⟨_, rfl, qualifiers_of_compile Descriptor.reset _ rfl⟩

/-- A descriptor with a wrapper and a path in which a qualifier stands behind another segment. -/
theorem qualifier_behind_segment : ∃ (d : Descriptor) (w : Wrapper), d.compile = .ok w ∧
    d.args = [("conn", .struct "net::crate::Conn" [])] ∧
    "net::crate::Conn" ∈ d.paths ∧ ¬Name.QualifiersLead "net::crate::Conn" := by
  refine ⟨{ funcName := "poll", args := [("conn", .struct "net::crate::Conn" [])] }, _, rfl, rfl,
    by decide, fun h => ?_⟩
  have hfirst : ∃ s ∈ (Name.segments "net::crate::Conn").tail, s = "crate" := by decide
  obtain ⟨s, hs, hcrate⟩ := hfirst
  exact (h.first s hs).1 hcrate

end AbiBridge
