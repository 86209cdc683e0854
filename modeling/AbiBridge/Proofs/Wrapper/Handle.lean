import AbiBridge.Proofs.Wrapper.Assembly
import Mathlib.Data.List.Flatten

/-!
Handles.

A handle comes into a wrapper as an opaque pointer to a struct, and the call either takes the struct
over or is only lent it. `Descriptor.handles` lists the handles of a wrapper in the order of its
parameters.

`RebuildRow` and `ReceiverRow` say, for each type of argument and each mode of the receiver, how
the value is rebuilt and what is handed back. Main statements: `rebuildRow` and `receiverRow`, a
value on its way to the call is one of these rows.
-/

namespace AbiBridge

open Outcome

/-- A parameter that carries a handle. -/
structure Handle where
  name : String
  /-- The struct that it points to. -/
  target : BoundaryType
  /-- Whether the struct may be changed through it. -/
  isMutable : Bool
  /-- Whether the call takes the struct over. -/
  isConsumed : Bool

namespace Handle

/-- A statement takes the handle back as the struct that it points to. -/
def ReclaimedBy (h : Handle) (s : Statement) : Prop :=
  ∃ text, h.target.native = .ok text ∧ s = .reclaim h.name text h.isMutable h.isConsumed

/-- The handles of a list that are only lent. -/
def lent (l : List Handle) : List Handle := l.filter (!·.isConsumed)

/-- What hands the handles out again that are only lent. -/
def releases (l : List Handle) : List Statement := (lent l).map fun h => .release h.name

lemma releases_append (l l' : List Handle) : releases (l ++ l') = releases l ++ releases l' := by
  rw [releases, lent, List.filter_append, List.map_append]
  rfl

lemma releases_flatMap {α : Type} (f : α → List Handle) (xs : List α) :
    releases (xs.flatMap f) = xs.flatMap fun x => releases (f x) := by
  rw [releases, lent, List.filter_flatMap, List.map_flatMap]
  rfl

end Handle

namespace BoundaryType

/-- The handle that an argument carries, if it carries one. -/
def handles (name : String) : BoundaryType → List Handle
  | struct s ps => [⟨name, struct s ps, false, true⟩]
  | sharedRef inner => [⟨name, inner, false, false⟩]
  | mutRef inner => [⟨name, inner, true, false⟩]
  | primitive _ | sequence _ | enum _ _ | unknown => []

/-- The expression by which an argument is passed on. -/
def passed (name : String) : BoundaryType → String
  | sharedRef _ => "&*" ++ name
  | mutRef _ => "&mut *" ++ name
  | primitive _ | struct _ _ | sequence _ | enum _ _ | unknown => name

end BoundaryType

namespace Descriptor

/-- The handle of the receiver, if there is one. -/
def receiverHandles (d : Descriptor) : List Handle :=
  match d.owner, d.receiver with
  | none, _ | _, .none => []
  | some owner, .value => [⟨receiverName, owner, false, true⟩]
  | some owner, .ref => [⟨receiverName, owner, false, false⟩]
  | some owner, .refMut => [⟨receiverName, owner, true, false⟩]
  | some owner, .valueMut => [⟨receiverName, owner, true, true⟩]

/-- The handles in the order of the parameters. -/
def handles (d : Descriptor) : List Handle :=
  d.receiverHandles ++ d.args.flatMap fun a => a.2.handles a.1

end Descriptor

/-! ### On the way to the call -/

/-- For each type of argument, how it is rebuilt. -/
inductive RebuildRow (name : String) : BoundaryType → Rebuilt → Prop where
  | scalar (s : String) : RebuildRow name (.primitive s) ⟨[], name, []⟩
  | handle {t : BoundaryType} (h : Handle) (text : String) (hhandles : t.handles name = [h])
      (hname : h.name = name) (htext : h.target.native = .ok text) :
      RebuildRow name t ⟨[.reclaim h.name text h.isMutable h.isConsumed], t.passed name,
        Handle.releases [h]⟩
  | run (elem : BoundaryType) (text : String) (htext : elem.native = .ok text) :
      RebuildRow name (.sequence elem)
        ⟨[.bind name ("std::slice::from_raw_parts(" ++ name ++ ", " ++ companionName name ++ ")")
          false (some ("&[" ++ text ++ "]")) true], name, []⟩
  | ordinal (s : String) (variants : List String) :
      RebuildRow name (.enum s variants) ⟨decodeEnum name s variants, name, []⟩

/-- With and without a receiver. -/
inductive ReceiverRow (d : Descriptor) : Rebuilt → Prop where
  | none (hhandles : d.receiverHandles = []) : ReceiverRow d ⟨[], receiverName, []⟩
  | handle (h : Handle) (text : String) (hhandles : d.receiverHandles = [h])
      (hname : h.name = receiverName) (htext : h.target.native = .ok text) :
      ReceiverRow d ⟨[.reclaim h.name text h.isMutable h.isConsumed], receiverName,
        Handle.releases [h]⟩

lemma rebuildRow {name : String} {t : BoundaryType} {r : Rebuilt} (h : t.rebuild name = .ok r) :
    RebuildRow name t r := by
  cases t with
  | primitive s =>
      cases h
      exact .scalar s
  | struct s ps =>
      obtain ⟨text, htext, hr⟩ := bind_eq_ok.mp h
      cases hr
      exact .handle ⟨name, .struct s ps, false, true⟩ text rfl rfl htext
  | sharedRef inner =>
      obtain ⟨text, htext, hr⟩ := bind_eq_ok.mp h
      cases hr
      exact .handle ⟨name, inner, false, false⟩ text rfl rfl htext
  | mutRef inner =>
      obtain ⟨text, htext, hr⟩ := bind_eq_ok.mp h
      cases hr
      exact .handle ⟨name, inner, true, false⟩ text rfl rfl htext
  | sequence elem =>
      obtain ⟨text, htext, hr⟩ := bind_eq_ok.mp h
      cases hr
      exact .run elem text htext
  | enum s vs =>
      cases h
      exact .ordinal s vs
  | unknown => cases h

lemma receiverRow {d : Descriptor} {r : Rebuilt} (h : d.rebuildReceiver = .ok r) :
    ReceiverRow d r := by
  rw [Descriptor.rebuildReceiver.eq_def] at h
  cases howner : d.owner with
  | none =>
      rw [howner] at h
      have hhandles : d.receiverHandles = [] := by rw [Descriptor.receiverHandles.eq_def, howner]
      cases hmode : d.receiver <;> rw [hmode] at h <;> cases h <;> exact .none hhandles
  | some owner =>
      rw [howner] at h
      cases hmode : d.receiver <;> rw [hmode] at h
      case none =>
        cases h
        exact .none (by rw [Descriptor.receiverHandles.eq_def, howner, hmode])
      all_goals
        obtain ⟨text, htext, hr⟩ := bind_eq_ok.mp h
        cases hr
        exact .handle ⟨receiverName, owner, _, _⟩ text
          (by rw [Descriptor.receiverHandles.eq_def, howner, hmode]) rfl htext

end AbiBridge
