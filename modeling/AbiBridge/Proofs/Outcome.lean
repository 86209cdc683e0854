import Mathlib.Data.List.Forall2
import Mathlib.Tactic.Lemma

/-!
When a chain of checks and steps succeeds.

Every check of the program is an `Except`, and most are put together from smaller ones by
sequencing, by guards, and by walking a list. Main statements:

* `bind_eq_ok`, `guard_eq_ok`: a sequence succeeds if each of its steps does, and a guard if its
  condition fails;
* `forM_eq_ok`, `mapM_eq_ok`: a walk over a list succeeds if it does at every member;
* `Keeps`, `Keeps.bind`: an operation with a state keeps a property of the state wherever it leaves
  off, and a sequence does if each of its steps does;
* `FailsAs`, `FailsAs.bind`: an operation fails for reasons of one sort only, and a sequence does if
  each of its steps does;
* `Alike`, `Alike.forM`: operations succeed at the same states and in the same way, and sequences do
  if their steps do.
-/

namespace AbiBridge.Outcome

variable {ε ε' α β : Type}

/-- A sequence succeeds if its first step does, and the rest on what that gives. -/
lemma bind_eq_ok {x : Except ε α} {f : α → Except ε β} {b : β} :
    x >>= f = .ok b ↔ ∃ a, x = .ok a ∧ f a = .ok b := by
  cases x with
  | error e => exact ⟨fun h => (nomatch h), fun ⟨_, h, _⟩ => (nomatch h)⟩
  | ok a => exact ⟨fun h => ⟨a, rfl, h⟩, fun ⟨_, ha, h⟩ => by cases ha; exact h⟩

/-- A sequence whose first step gives nothing. -/
lemma bind_unit_eq_ok {x : Except ε Unit} {f : Unit → Except ε β} {b : β} :
    x >>= f = .ok b ↔ x = .ok () ∧ f () = .ok b := by
  rw [bind_eq_ok]
  exact ⟨fun ⟨_, hx, hf⟩ => ⟨hx, hf⟩, fun ⟨hx, hf⟩ => ⟨(), hx, hf⟩⟩

lemma pure_eq_ok {a b : α} : (pure a : Except ε α) = .ok b ↔ a = b :=
  ⟨fun h => by cases h; rfl, fun h => by rw [h]; rfl⟩

lemma map_eq_ok {x : Except ε α} {f : α → β} {b : β} :
    x.map f = .ok b ↔ ∃ a, x = .ok a ∧ f a = b := by
  cases x with
  | error e => exact ⟨fun h => (nomatch h), fun ⟨_, h, _⟩ => (nomatch h)⟩
  | ok a => exact ⟨fun h => ⟨a, rfl, Except.ok.inj h⟩, fun ⟨_, ha, h⟩ => by cases ha; rw [← h]; rfl⟩

/-- Another name for the fault changes no success. -/
lemma mapError_eq_ok {x : Except ε α} {f : ε → ε'} {a : α} :
    x.mapError f = .ok a ↔ x = .ok a := by
  cases x with
  | error e => exact ⟨fun h => (nomatch h), fun h => (nomatch h)⟩
  | ok b => exact ⟨fun h => by cases h; rfl, fun h => by cases h; rfl⟩

section Guards

variable {c : Prop} [Decidable c] {e : ε} {x : Except ε β} {b : β}

/-- A guard in front of other steps. -/
lemma guard_eq_ok {f : α → Except ε β} :
    (if c then throw e >>= f else x) = .ok b ↔ ¬c ∧ x = .ok b := by
  by_cases hc : c
  · rw [if_pos hc]
    exact ⟨fun h => (nomatch h), fun h => absurd hc h.1⟩
  · rw [if_neg hc]
    exact ⟨fun h => ⟨hc, h⟩, fun h => h.2⟩

/-- A guard at the end. -/
lemma ite_throw_eq_ok : (if c then throw e else x) = .ok b ↔ ¬c ∧ x = .ok b := by
  by_cases hc : c
  · rw [if_pos hc]
    exact ⟨fun h => (nomatch h), fun h => absurd hc h.1⟩
  · rw [if_neg hc]
    exact ⟨fun h => ⟨hc, h⟩, fun h => h.2⟩

end Guards

/-! ### Walks over lists -/

/-- A check of every member. -/
lemma forM_eq_ok {f : α → Except ε Unit} (l : List α) :
    l.forM f = .ok () ↔ ∀ a ∈ l, f a = .ok () := by
  induction l with
  | nil => exact ⟨fun _ a ha => absurd ha List.not_mem_nil, fun _ => rfl⟩
  | cons a l ih =>
      rw [List.forall_mem_cons, ← ih]
      exact bind_unit_eq_ok

/-- A check of what may be there. -/
lemma option_forM_eq_ok {f : α → Except ε Unit} (o : Option α) :
    o.forM f = .ok () ↔ ∀ a ∈ o, f a = .ok () := by
  cases o with
  | none => exact ⟨fun _ a ha => (nomatch ha), fun _ => rfl⟩
  | some a => exact ⟨fun h b hb => by cases hb; exact h, fun h => h a rfl⟩

/-- A walk gives one result for each member, in order. -/
lemma mapM_eq_ok {f : α → Except ε β} {l : List α} {r : List β} :
    l.mapM f = .ok r ↔ List.Forall₂ (fun a b => f a = .ok b) l r := by
  induction l generalizing r with
  | nil =>
      rw [List.mapM_nil, pure_eq_ok, List.forall₂_nil_left_iff]
      exact eq_comm
  | cons a l ih =>
      rw [List.mapM_cons, bind_eq_ok, List.forall₂_cons_left_iff]
      constructor
      · rintro ⟨b, hb, h⟩
        obtain ⟨bs, hbs, hr⟩ := bind_eq_ok.mp h
        exact ⟨b, bs, hb, ih.mp hbs, (pure_eq_ok.mp hr).symm⟩
      · rintro ⟨b, bs, hb, hbs, rfl⟩
        exact ⟨b, hb, bind_eq_ok.mpr ⟨bs, ih.mpr hbs, rfl⟩⟩

/-- A walk succeeds if it does at every member. -/
lemma exists_mapM_eq_ok {f : α → Except ε β} {l : List α} (h : ∀ a ∈ l, ∃ b, f a = .ok b) :
    ∃ r, l.mapM f = .ok r := by
  induction l with
  | nil => exact ⟨[], rfl⟩
  | cons a l ih =>
      obtain ⟨b, hb⟩ := h a List.mem_cons_self
      obtain ⟨bs, hbs⟩ := ih fun c hc => h c (List.mem_cons_of_mem a hc)
      refine ⟨b :: bs, ?_⟩
      rw [List.mapM_cons]
      exact bind_eq_ok.mpr ⟨b, hb, bind_eq_ok.mpr ⟨bs, hbs, rfl⟩⟩

/-- A walk gives results that stand in a relation to the members if it does at every member. -/
lemma exists_mapM_rel {f : α → Except ε β} {R : β → α → Prop} {l : List α}
    (h : ∀ a ∈ l, ∃ b, f a = .ok b ∧ R b a) : ∃ r, l.mapM f = .ok r ∧ List.Forall₂ R r l := by
  induction l with
  | nil => exact ⟨[], rfl, .nil⟩
  | cons a l ih =>
      obtain ⟨⟨b, hb, hab⟩, hl⟩ := List.forall_mem_cons.mp h
      obtain ⟨bs, hbs, hrel⟩ := ih hl
      refine ⟨b :: bs, ?_, .cons hab hrel⟩
      rw [List.mapM_cons]
      exact bind_eq_ok.mpr ⟨b, hb, bind_eq_ok.mpr ⟨bs, hbs, rfl⟩⟩

/-- A walk over the results of another one. -/
lemma mapM_mapM_eq_ok {γ : Type} {f : α → Except ε β} {g : β → Except ε' γ} {l : List α}
    {r : List γ} : (∃ m, l.mapM f = .ok m ∧ m.mapM g = .ok r) ↔
      List.Forall₂ (fun a c => ∃ b, f a = .ok b ∧ g b = .ok c) l r := by
  simp only [mapM_eq_ok]
  induction l generalizing r with
  | nil => simp
  | cons a l ih =>
      simp only [List.forall₂_cons_left_iff, ← ih]
      constructor
      · rintro ⟨_, ⟨b, m, hb, hm, rfl⟩, hall⟩
        obtain ⟨c, r, hc, hr, rfl⟩ := List.forall₂_cons_left_iff.mp hall
        exact ⟨c, r, ⟨b, hb, hc⟩, ⟨m, hm, hr⟩, rfl⟩
      · rintro ⟨c, r, ⟨b, hb, hc⟩, ⟨m, hm, hr⟩, rfl⟩
        exact ⟨b :: m, ⟨b, m, hb, hm, rfl⟩, .cons hc hr⟩

/-- A walk over what may be there. -/
lemma option_mapM_eq_ok {f : α → Except ε β} {o : Option α} {r : Option β} :
    o.mapM f = .ok r ↔ Option.Rel (fun a b => f a = .ok b) o r := by
  cases o with
  | none =>
      rw [Option.mapM_none, pure_eq_ok]
      constructor
      · rintro rfl
        exact .none
      · rintro ⟨⟩
        rfl
  | some a =>
      rw [Option.mapM_some, map_eq_pure_bind, bind_eq_ok]
      constructor
      · rintro ⟨b, hb, h⟩
        cases pure_eq_ok.mp h
        exact .some hb
      · rintro ⟨⟩
        exact ⟨_, ‹_›, rfl⟩

/-- A walk over what may be there and what it gave. -/
lemma option_mapM_mapM_eq_ok {γ : Type} {f : α → Except ε β} {g : β → Except ε' γ} {o : Option α}
    {r : Option γ} : (∃ m, o.mapM f = .ok m ∧ m.mapM g = .ok r) ↔
      Option.Rel (fun a c => ∃ b, f a = .ok b ∧ g b = .ok c) o r := by
  simp only [option_mapM_eq_ok]
  constructor
  · rintro ⟨m, hm, hr⟩
    cases hm with
    | none =>
        cases hr
        exact .none
    | some hb =>
        cases hr with
        | some hc => exact .some ⟨_, hb, hc⟩
  · intro h
    cases h with
    | none => exact ⟨none, .none, .none⟩
    | some h =>
        obtain ⟨b, hb, hc⟩ := h
        exact ⟨some b, .some hb, .some hc⟩

/-! ### Sorts of faults -/

/-- Whenever a check fails, it is with a fault of the given sort. -/
def FaultsAs (E : ε → Prop) (x : Except ε α) : Prop := ∀ e, x = .error e → E e

namespace FaultsAs

variable {E : ε → Prop} {x : Except ε α}

lemma pure (a : α) : FaultsAs E (Pure.pure a : Except ε α) := fun _ h => (nomatch h)

lemma throw {e : ε} (h : E e) : FaultsAs E (MonadExcept.throw e : Except ε α) := by
  intro e' he
  cases he
  exact h

lemma bind {f : α → Except ε β} (hx : FaultsAs E x) (hf : ∀ a, FaultsAs E (f a)) :
    FaultsAs E (x >>= f) := by
  intro e he
  cases x with
  | error e' =>
      cases he
      exact hx e rfl
  | ok a => exact hf a e he

/-- Another name for the fault. -/
lemma mapError {x : Except ε' α} {f : ε' → ε} (h : ∀ e, E (f e)) : FaultsAs E (x.mapError f) := by
  intro e he
  cases x with
  | error e' =>
      cases he
      exact h e'
  | ok a => cases he

lemma mapM {f : α → Except ε β} (h : ∀ a, FaultsAs E (f a)) (l : List α) :
    FaultsAs E (l.mapM f) := by
  induction l with
  | nil => exact .pure _
  | cons a l ih =>
      rw [List.mapM_cons]
      exact (h a).bind fun b => ih.bind fun bs => .pure _

lemma option_mapM {f : α → Except ε β} (h : ∀ a, FaultsAs E (f a)) (o : Option α) :
    FaultsAs E (o.mapM f) := by
  cases o with
  | none => exact .pure _
  | some a =>
      rw [Option.mapM_some, map_eq_pure_bind]
      exact (h a).bind fun b => .pure _

lemma forM {f : α → Except ε Unit} {l : List α} (h : ∀ a ∈ l, FaultsAs E (f a)) :
    FaultsAs E (l.forM f) := by
  induction l with
  | nil => exact .pure _
  | cons a l ih =>
      obtain ⟨ha, hl⟩ := List.forall_mem_cons.mp h
      exact ha.bind fun _ => ih hl

lemma option_forM {f : α → Except ε Unit} {o : Option α} (h : ∀ a ∈ o, FaultsAs E (f a)) :
    FaultsAs E (o.forM f) := by
  cases o with
  | none => exact .pure _
  | some a => exact h a rfl

lemma guard {c : Prop} [Decidable c] {e : ε} {f : α → Except ε β} {x : Except ε β} (he : E e)
    (hx : FaultsAs E x) : FaultsAs E (if c then MonadExcept.throw e >>= f else x) := by
  split
  · exact FaultsAs.throw he
  · exact hx

end FaultsAs

/-! ### Operations with a state -/

section State

variable {σ : Type} {P : σ → Prop} {x y : EStateM ε σ α}

/-- The state in which an operation leaves off, whether or not it failed. -/
def after (x : EStateM ε σ α) (s : σ) : σ :=
  match x s with
  | .ok _ s | .error _ s => s

lemma after_of_ok {s s' : σ} {a : α} (h : x s = .ok a s') : after x s = s' := by
  rw [after, h]

lemma after_of_error {s s' : σ} {e : ε} (h : x s = .error e s') : after x s = s' := by
  rw [after, h]

/-- An operation that gives an answer ends in the state in which it leaves off. -/
lemma eq_ok_of_run'_eq_some {s : σ} {a : α} (h : x.run' s = some a) : x s = .ok a (after x s) := by
  delta EStateM.run' EStateM.run at h
  cases hx : x s with
  | ok b s' =>
      rw [hx] at h
      cases h
      rw [after_of_ok hx]
  | error e s' =>
      rw [hx] at h
      cases h

lemma run_get (s : σ) : (get : EStateM ε σ σ) s = .ok s s := rfl

/-- A sequence goes on where its first step leaves off. -/
lemma run_bind {f : α → EStateM ε σ β} {s s' : σ} {a : α} (h : x s = .ok a s') :
    (x >>= f) s = f a s' := by
  change EStateM.bind x f s = f a s'
  rw [EStateM.bind, h]

/-- A sequence fails where its first step does. -/
lemma run_bind_of_error {f : α → EStateM ε σ β} {s s' : σ} {e : ε} (h : x s = .error e s') :
    (x >>= f) s = .error e s' := by
  change EStateM.bind x f s = .error e s'
  rw [EStateM.bind, h]

lemma after_bind_of_ok {f : α → EStateM ε σ β} {s s' : σ} {a : α} (h : x s = .ok a s') :
    after (x >>= f) s = after (f a) s' := by
  rw [after, run_bind h, after]

lemma after_bind_of_error {f : α → EStateM ε σ β} {s s' : σ} {e : ε} (h : x s = .error e s') :
    after (x >>= f) s = s' :=
  after_of_error (run_bind_of_error h)

lemma discard_eq_bind (x : EStateM ε σ α) : discard x = x >>= fun _ => pure () := rfl

/-- What an operation gives makes no difference to where it leaves off. -/
lemma after_discard (x : EStateM ε σ α) (s : σ) : after (discard x) s = after x s := by
  rw [discard_eq_bind]
  cases h : x s with
  | ok a s' =>
      rw [after_bind_of_ok h, after_of_ok h]
      rfl
  | error e s' => rw [after_bind_of_error h, after_of_error h]

/-- An operation keeps a property of the state, also where it fails. -/
def Keeps (P : σ → Prop) (x : EStateM ε σ α) : Prop := ∀ s, P s → P (after x s)

namespace Keeps

lemma pure (a : α) : Keeps P (Pure.pure a : EStateM ε σ α) := fun _ hs => hs

lemma throw (e : ε) : Keeps P (MonadExcept.throw e : EStateM ε σ α) := fun _ hs => hs

/-- A check that does not look at the state. -/
lemma ofExcept (x : Except ε α) : Keeps P (MonadExcept.ofExcept x : EStateM ε σ α) := by
  cases x with
  | error e => exact .throw e
  | ok a => exact .pure a

/-- A check that does not look at the state comes first. -/
lemma ofExcept_bind {x : Except ε α} {f : α → EStateM ε σ β}
    (h : ∀ a, x = .ok a → Keeps P (f a)) : Keeps P (MonadExcept.ofExcept x >>= f) := by
  cases x with
  | error e => exact fun _ hs => hs
  | ok a => exact h a rfl

lemma bind {f : α → EStateM ε σ β} (hx : Keeps P x) (hf : ∀ a, Keeps P (f a)) :
    Keeps P (x >>= f) := by
  intro s hs
  have hmiddle := hx s hs
  cases h : x s with
  | ok a s' =>
      rw [after_of_ok h] at hmiddle
      rw [after_bind_of_ok h]
      exact hf a s' hmiddle
  | error e s' =>
      rw [after_of_error h] at hmiddle
      rwa [after_bind_of_error h]

lemma ite {c : Prop} [Decidable c] (hx : Keeps P x) (hy : Keeps P y) :
    Keeps P (if c then x else y) := by
  split
  · exact hx
  · exact hy

/-- A step with another one to be made if it fails. -/
lemma tryCatch {f : ε → EStateM ε σ α} (hx : Keeps P x) (hf : ∀ e, Keeps P (f e)) :
    Keeps P (MonadExcept.tryCatch x f) := by
  intro s hs
  have hfirst := hx s hs
  change P (after (EStateM.tryCatch x f) s)
  rw [after, EStateM.tryCatch]
  cases h : x s with
  | ok a s' =>
      rw [after_of_ok h] at hfirst
      exact hfirst
  | error e s' =>
      rw [after_of_error h] at hfirst
      exact hf e s' hfirst

/-- A step that is only made under a condition. -/
lemma ite_bind {c : Prop} [Decidable c] {x : EStateM ε σ Unit} {f : Unit → EStateM ε σ β}
    (hx : Keeps P x) (hf : ∀ u, Keeps P (f u)) : Keeps P (if c then x >>= f else f ()) :=
  .ite (hx.bind hf) (hf ())

/-- A walk each of whose steps keeps the property. -/
lemma forM {γ : Type} {f : γ → EStateM ε σ PUnit} {l : List γ} (h : ∀ a ∈ l, Keeps P (f a)) :
    Keeps P (l.forM f) := by
  induction l with
  | nil => exact fun _ hs => hs
  | cons a l ih =>
      obtain ⟨ha, hl⟩ := List.forall_mem_cons.mp h
      exact ha.bind fun _ => ih hl

lemma discard (hx : Keeps P x) : Keeps P (Functor.discard x) := by
  intro s hs
  rw [after_discard]
  exact hx s hs

end Keeps

/-- Whenever an operation fails, it is for a reason of the given sort. -/
def FailsAs (E : ε → Prop) (x : EStateM ε σ α) : Prop := ∀ s e s', x s = .error e s' → E e

namespace FailsAs

variable {E : ε → Prop}

/-- An operation that never fails. -/
lemma of_ok (h : ∀ s, ∃ a s', x s = .ok a s') : FailsAs E x := by
  intro s e s' he
  obtain ⟨a, t, ha⟩ := h s
  rw [ha] at he
  cases he

lemma pure (a : α) : FailsAs E (Pure.pure a : EStateM ε σ α) := .of_ok fun s => ⟨a, s, rfl⟩

lemma throw {e : ε} (h : E e) : FailsAs E (MonadExcept.throw e : EStateM ε σ α) := by
  intro s e' s' he
  cases he
  exact h

lemma ofExcept {x : Except ε α} (h : FaultsAs E x) :
    FailsAs E (MonadExcept.ofExcept x : EStateM ε σ α) := by
  cases x with
  | error e => exact .throw (h e rfl)
  | ok a => exact .pure a

lemma bind {f : α → EStateM ε σ β} (hx : FailsAs E x) (hf : ∀ a, FailsAs E (f a)) :
    FailsAs E (x >>= f) := by
  intro s e s' he
  cases h : x s with
  | ok a t =>
      rw [run_bind h] at he
      exact hf a t e s' he
  | error e' t =>
      rw [run_bind_of_error h] at he
      cases he
      exact hx s e s' h

lemma ite_bind {c : Prop} [Decidable c] {x : EStateM ε σ Unit} {f : Unit → EStateM ε σ α}
    (hx : FailsAs E x) (hf : ∀ u, FailsAs E (f u)) :
    FailsAs E (if c then x >>= f else f ()) := by
  split
  · exact hx.bind hf
  · exact hf ()

end FailsAs

/-- Two operations succeed at the same states, with the same answer, and leave off alike. -/
def Alike (x y : EStateM ε σ α) : Prop := ∀ s a s', x s = .ok a s' ↔ y s = .ok a s'

namespace Alike

lemma refl (x : EStateM ε σ α) : Alike x x := fun _ _ _ => Iff.rfl

/-- Operations that never succeed. -/
lemma of_fail (hx : ∀ s, ∃ e s', x s = .error e s') (hy : ∀ s, ∃ e s', y s = .error e s') :
    Alike x y := by
  intro s a s'
  obtain ⟨e, t, hfail⟩ := hx s
  obtain ⟨e', t', hfail'⟩ := hy s
  rw [hfail, hfail']
  exact iff_of_false nofun nofun

/-- Checks that do not look at the state. -/
lemma ofExcept {x y : Except ε α} (h : ∀ a, x = .ok a ↔ y = .ok a) :
    Alike (MonadExcept.ofExcept x : EStateM ε σ α) (MonadExcept.ofExcept y) := by
  cases x with
  | ok a =>
      rw [(h a).mp rfl]
      exact .refl _
  | error e =>
      cases y with
      | ok a => exact absurd ((h a).mpr rfl) nofun
      | error e' => exact .of_fail (fun s => ⟨e, s, rfl⟩) fun s => ⟨e', s, rfl⟩

lemma bind {f g : α → EStateM ε σ β} (h : Alike x y) (hf : ∀ a, Alike (f a) (g a)) :
    Alike (x >>= f) (y >>= g) := by
  intro s b s'
  cases hx : x s with
  | ok a t => rw [run_bind hx, run_bind ((h s a t).mp hx), hf a t b s']
  | error e t =>
      rw [run_bind_of_error hx]
      cases hy : y s with
      | ok a t' => exact absurd ((h s a t').mpr hy) (by rw [hx]; nofun)
      | error e' t' =>
          rw [run_bind_of_error hy]
          exact iff_of_false nofun nofun

/-- Walks over two lists, member by member. -/
lemma forM {γ δ : Type} {R : γ → δ → Prop} {f : γ → EStateM ε σ PUnit} {g : δ → EStateM ε σ PUnit}
    {l : List γ} {l' : List δ} (h : List.Forall₂ R l l') (hfg : ∀ a b, R a b → Alike (f a) (g b)) :
    Alike (l.forM f) (l'.forM g) := by
  induction h with
  | nil => exact .refl _
  | cons hab _ ih => exact (hfg _ _ hab).bind fun _ => ih

end Alike

end State

end AbiBridge.Outcome
