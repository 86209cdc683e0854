import Mathlib.Data.List.Forall2
import Mathlib.Data.List.Nodup
import Mathlib.Tactic.Lemma

/-!
Two lists taken member by member.

* `exists_of_mem_right`: every member of the second list goes with one of the first;
* `imp_of_mem`: the relation may be replaced by one that follows from it for members of the first;
* `exists_filter_eq_singleton`: where the keys of the first list are pairwise distinct, the
  members of the second that have the key of a given one are a single member, and it goes with it.
-/

namespace AbiBridge.Listwise

variable {α β κ : Type} {R : α → β → Prop} {as : List α} {bs : List β}

lemma exists_of_mem_right (h : List.Forall₂ R as bs) {b : β} (hb : b ∈ bs) :
    ∃ a ∈ as, R a b := by
  induction h with
  | nil => exact absurd hb List.not_mem_nil
  | @cons a c as cs hac _ ih =>
      rcases List.mem_cons.mp hb with rfl | hb
      · exact ⟨a, List.mem_cons_self, hac⟩
      · obtain ⟨a', ha', h'⟩ := ih hb
        exact ⟨a', List.mem_cons_of_mem _ ha', h'⟩

/-- What follows from the relation may be shown for the members of the first list alone. -/
lemma imp_of_mem {S : α → β → Prop} (h : List.Forall₂ R as bs)
    (hRS : ∀ a ∈ as, ∀ b, R a b → S a b) : List.Forall₂ S as bs := by
  have hmem := (List.forall₂_and_left (p := (· ∈ as)) as bs).mpr ⟨fun _ ha => ha, h⟩
  exact hmem.imp fun a b hab => hRS a hab.1 b hab.2

/-- The pieces of two lists agree where those of corresponding members do. -/
lemma flatMap_eq {γ : Type} {f : α → List γ} {g : β → List γ} (h : List.Forall₂ R as bs)
    (hfg : ∀ a b, R a b → f a = g b) : as.flatMap f = bs.flatMap g := by
  induction h with
  | nil => rfl
  | cons hab _ ih => rw [List.flatMap_cons, List.flatMap_cons, hfg _ _ hab, ih]

/-- What is read off the members of the second list, where it is given by those of the first. -/
lemma filterMap_eq_map {γ : Type} {f : β → Option γ} {g : α → γ} (h : List.Forall₂ R as bs)
    (hfg : ∀ a b, R a b → f b = some (g a)) : bs.filterMap f = as.map g := by
  induction h with
  | nil => rfl
  | cons hab _ ih => rw [List.filterMap_cons_some (hfg _ _ hab), List.map_cons, ih]

/-- What is read off the pieces of the second list, where it is given by some of the members of the
first. -/
lemma filterMap_flatMap_eq {γ δ : Type} {f : γ → Option δ} {g : β → List γ} {p : α → Bool}
    {k : α → δ} (h : List.Forall₂ R as bs)
    (hfg : ∀ a ∈ as, ∀ b, R a b → (g b).filterMap f = if p a then [k a] else []) :
    (bs.flatMap g).filterMap f = (as.filter p).map k := by
  induction h with
  | nil => rfl
  | @cons a b as bs hab _ ih =>
      obtain ⟨hhead, htail⟩ := List.forall_mem_cons.mp hfg
      rw [List.flatMap_cons, List.filterMap_append, hhead b hab, ih htail]
      by_cases hp : p a = true
      · rw [if_pos hp, List.filter_cons_of_pos hp]
        rfl
      · rw [if_neg hp, List.filter_cons_of_neg hp]
        rfl

section Keys

variable [DecidableEq κ] (key : α → κ) (key' : β → κ)

/-- Members with a key that no member of the first list has. -/
lemma filter_eq_nil_of_notMem (h : List.Forall₂ R as bs) (hkey : ∀ a b, R a b → key' b = key a)
    {k : κ} (hk : k ∉ as.map key) : bs.filter (fun b => key' b = k) = [] := by
  refine List.filter_eq_nil_iff.mpr fun b hb hbk => hk ?_
  obtain ⟨a, ha, hab⟩ := exists_of_mem_right h hb
  exact List.mem_map.mpr ⟨a, ha, (hkey a b hab).symm.trans (of_decide_eq_true hbk)⟩

/-- Members with the key of a given one. -/
lemma exists_filter_eq_singleton (h : List.Forall₂ R as bs)
    (hkey : ∀ a b, R a b → key' b = key a) (hnodup : (as.map key).Nodup) {a : α} (ha : a ∈ as) :
    ∃ b, R a b ∧ bs.filter (fun b => key' b = key a) = [b] := by
  induction h with
  | nil => exact absurd ha List.not_mem_nil
  | @cons c b as bs hcb hrest ih =>
      rw [List.map_cons, List.nodup_cons] at hnodup
      rcases List.mem_cons.mp ha with rfl | ha
      · refine ⟨b, hcb, ?_⟩
        rw [List.filter_cons, if_pos (decide_eq_true (hkey a b hcb)),
          filter_eq_nil_of_notMem key key' hrest hkey hnodup.1]
      · obtain ⟨b', hb', hfilter⟩ := ih hnodup.2 ha
        refine ⟨b', hb', ?_⟩
        rw [List.filter_cons_of_neg, hfilter]
        intro heq
        have hca : key c = key a := (hkey c b hcb).symm.trans (of_decide_eq_true heq)
        exact hnodup.1 (hca ▸ List.mem_map_of_mem ha)

end Keys

end AbiBridge.Listwise
