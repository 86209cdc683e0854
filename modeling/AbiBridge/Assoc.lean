/-!
Lists of keys with values, in the order in which the keys came up.

Main statements:

* `lookup_put_self` and `lookup_put_of_ne`: putting a value under a key changes what is found
  under that key, and nothing else;
* `map_fst_put`: a key that is there already keeps its place, and a new one comes last;
* `put_of_not_mem` and `put_append_singleton`: the list that comes of it, where the key is new and
  where it is the last one.
-/

namespace AbiBridge.Assoc

variable {α β : Type} [BEq α]

/-- The list with a value under a key: in the stead of the one that was there, or at the end. -/
def put (key : α) (value : β) : List (α × β) → List (α × β)
  | [] => [(key, value)]
  | (k, v) :: rest => if k == key then (key, value) :: rest else (k, v) :: put key value rest

variable [LawfulBEq α]

/-- Nothing is found under what is no key. -/
theorem lookup_eq_none_iff {key : α} {l : List (α × β)} :
    l.lookup key = none ↔ key ∉ l.map Prod.fst := by
  rw [List.lookup_eq_none_iff, List.mem_map, not_exists]
  refine forall_congr' fun e => ?_
  rw [not_and, bne_iff_ne]
  exact forall_congr' fun _ => ne_comm

theorem lookup_put_self (key : α) (value : β) (l : List (α × β)) :
    (put key value l).lookup key = some value := by
  induction l with
  | nil => simp [put]
  | cons e rest ih =>
      obtain ⟨k, v⟩ := e
      rw [put]
      split
      · exact List.lookup_cons_self
      · next hne =>
        have hne : (key == k) = false := beq_false_of_ne fun h => hne (beq_of_eq h.symm)
        rw [List.lookup_cons, hne]
        exact ih

theorem lookup_put_of_ne {key other : α} (hne : other ≠ key) (value : β) (l : List (α × β)) :
    (put key value l).lookup other = l.lookup other := by
  have hother : (other == key) = false := beq_false_of_ne hne
  induction l with
  | nil => simp [put, List.lookup_cons, hother]
  | cons e rest ih =>
      obtain ⟨k, v⟩ := e
      rw [put]
      split
      · next hk =>
        rw [eq_of_beq hk]
        simp only [List.lookup_cons, hother]
      · rw [List.lookup_cons, List.lookup_cons, ih]

theorem map_fst_put (key : α) (value : β) (l : List (α × β)) :
    (put key value l).map Prod.fst =
      if (l.map Prod.fst).contains key then l.map Prod.fst else l.map Prod.fst ++ [key] := by
  induction l with
  | nil => rfl
  | cons e rest ih =>
      obtain ⟨k, v⟩ := e
      rw [put]
      by_cases hk : k = key
      · subst hk
        simp
      · have hsymm : ¬key = k := fun h => hk h.symm
        simp only [beq_iff_eq, hk, if_false, List.map_cons, ih, List.contains_cons,
          Bool.false_or, beq_false_of_ne hsymm]
        split <;> rfl

theorem put_of_not_mem {key : α} {l : List (α × β)} (h : key ∉ l.map Prod.fst) (value : β) :
    put key value l = l ++ [(key, value)] := by
  induction l with
  | nil => rfl
  | cons e l ih =>
      rw [List.map_cons, List.mem_cons, not_or] at h
      rw [put, if_neg (fun heq => h.1 (eq_of_beq heq).symm), ih h.2, List.cons_append]

theorem put_append_singleton {key : α} {l : List (α × β)} (h : key ∉ l.map Prod.fst)
    (old new : β) : put key new (l ++ [(key, old)]) = l ++ [(key, new)] := by
  induction l with
  | nil => rw [List.nil_append, put, if_pos (beq_self_eq_true key), List.nil_append]
  | cons e l ih =>
      rw [List.map_cons, List.mem_cons, not_or] at h
      rw [List.cons_append, put, if_neg (fun heq => h.1 (eq_of_beq heq).symm), ih h.2,
        List.cons_append]

end AbiBridge.Assoc
