import AbiBridge.Proofs.Wrapper.ResultProtocol

/-!
The types of the exported surface.

Whatever its native types are, a wrapper is called through parameters of a few flat types: scalars,
the opaque pointer, pointers to scalars, and for results pointers to these. Scalars are shown as
they are given, so they decide whether the surface is flat.

* `flatTypes`, `flatOutTypes`: the types of a flat surface;
* `types_argumentParameters`, `types_resultParameters`: the types that each kind of argument and
  result is shown as;
* `flat_iff`: a surface is flat if and only if its scalars are;
* `exportedSurface_of_compile`: the surface of every wrapper.
-/

namespace AbiBridge

open Outcome

/-! ### Flat types -/

/-- The types of a flat surface: scalars, handles, and runs of scalars. -/
def flatTypes : List String :=
  BoundaryType.primitiveNames ++
    opaquePointer :: BoundaryType.primitiveNames.map fun s => "*const " ++ s

/-- The types of the out-pointers of a flat surface, which may point to a run of handles as well. -/
def flatOutTypes : List String :=
  (flatTypes ++ ["*mut " ++ opaquePointer]).map fun s => "*mut " ++ s

lemma mem_flatOutTypes_iff {s : String} :
    "*mut " ++ s ∈ flatOutTypes ↔ s ∈ flatTypes ∨ s = "*mut " ++ opaquePointer := by
  rw [flatOutTypes, List.mem_map, ← List.mem_singleton, ← List.mem_append]
  constructor
  · rintro ⟨t, ht, heq⟩
    rwa [← (String.append_right_inj _).mp heq]
  · exact fun h => ⟨s, h, rfl⟩

/-- Only a run of scalars is shown as a constant pointer. -/
lemma constPointer_mem_flatTypes_iff {s : String} :
    "*const " ++ s ∈ flatTypes ↔ s ∈ BoundaryType.primitiveNames := by
  have hsplit : flatTypes = (BoundaryType.primitiveNames ++ [opaquePointer]) ++
      BoundaryType.primitiveNames.map fun s => "*const " ++ s := by
    rw [flatTypes, List.append_assoc, List.singleton_append]
  have hstart : ("*const " ++ s).toList.take 2 = ['*', 'c'] := by
    rw [String.toList_append]
    rfl
  have hothers : ∀ t ∈ BoundaryType.primitiveNames ++ [opaquePointer],
      t.toList.take 2 ≠ ['*', 'c'] := by decide
  rw [hsplit, List.mem_append, List.mem_map]
  constructor
  · rintro (h | ⟨t, ht, heq⟩)
    · exact absurd hstart (hothers _ h)
    · rwa [← (String.append_right_inj _).mp heq]
  · exact fun h => Or.inr ⟨s, h, rfl⟩

namespace Parameter

/-- Whether the parameter is an out-pointer. -/
def isOut : Parameter → Bool
  | receiver => false
  | named _ _ role => role.isOut

/-- The parameter is of a flat type. -/
def Flat (p : Parameter) : Prop := p.typeText ∈ if p.isOut then flatOutTypes else flatTypes

end Parameter

/-- All that a signature shows is flat; an empty text is not shown as a result. -/
structure Signature.Flat (s : Signature) : Prop where
  params : ∀ p ∈ s.params, p.Flat
  result : ∀ r ∈ s.result, r = "" ∨ r ∈ flatTypes

/-! ### Types of parameters -/

namespace BoundaryType

/-- The types that an argument is shown as. -/
def argumentTypes : BoundaryType → List String
  | primitive s => [s]
  | sequence (primitive s) => ["*const " ++ s, "usize"]
  | enum _ _ => ["usize"]
  | _ => [opaquePointer]

/-- The types that a result is shown as among the parameters. -/
def resultTypes (fallible : Bool) : BoundaryType → List String
  | primitive s => if fallible then ["*mut " ++ s] else []
  | sequence _ => ["*mut " ++ ("*mut " ++ opaquePointer), "*mut usize"]
  | _ => ["*mut " ++ opaquePointer]

/-- The scalar of an argument is flat, if it is one or a run of it. -/
def FlatArgument : BoundaryType → Prop
  | primitive s => s ∈ flatTypes
  | sequence (primitive s) => s ∈ primitiveNames
  | _ => True

/-- The scalar of a result is flat, if it is one. -/
def FlatResult (fallible : Bool) : BoundaryType → Prop
  | primitive s =>
      if fallible then s ∈ flatTypes ∨ s = "*mut " ++ opaquePointer else s = "" ∨ s ∈ flatTypes
  | _ => True

end BoundaryType

namespace BoundaryType

/-- The types that an argument is shown as are flat if its scalar is. -/
lemma flatArgument_iff {t : BoundaryType} (h : t.IsArgument) :
    (∀ s ∈ t.argumentTypes, s ∈ flatTypes) ↔ t.FlatArgument := by
  have hpointer : opaquePointer ∈ flatTypes := by decide
  have hlength : "usize" ∈ flatTypes := by decide
  cases h with
  | simple hsimple =>
      cases hsimple with
      | primitive s => simp [argumentTypes, FlatArgument]
      | struct s params => simp [argumentTypes, FlatArgument, hpointer]
  | sharedRef s params => simp [argumentTypes, FlatArgument, hpointer]
  | mutRef s params => simp [argumentTypes, FlatArgument, hpointer]
  | sequence s => simp [argumentTypes, FlatArgument, hlength, constPointer_mem_flatTypes_iff]
  | enum s hvariants => simp [argumentTypes, FlatArgument, hlength]

lemma flatResult_iff {fallible : Bool} {t : BoundaryType} (h : t.IsResult fallible) :
    (∀ s ∈ t.resultTypes fallible, s ∈ flatOutTypes) ∧
        (∀ s, t = primitive s → fallible = false → s = "" ∨ s ∈ flatTypes) ↔
      t.FlatResult fallible := by
  have hpointer : "*mut " ++ opaquePointer ∈ flatOutTypes := by decide
  have hrun : "*mut " ++ ("*mut " ++ opaquePointer) ∈ flatOutTypes := by decide
  have hlength : "*mut usize" ∈ flatOutTypes := by decide
  cases h with
  | simple hsimple =>
      cases hsimple with
      | primitive s => cases fallible <;> simp [resultTypes, FlatResult, mem_flatOutTypes_iff]
      | struct s params => simp [resultTypes, FlatResult, hpointer]
  | sharedRef hsimple => simp [resultTypes, FlatResult, hpointer]
  | mutRef hsimple => simp [resultTypes, FlatResult, hpointer]
  | sequence hprotocol hsimple => simp [resultTypes, FlatResult, hrun, hlength]

lemma flatArgument_of_scalars {t : BoundaryType} (h : ∀ s ∈ t.scalars, s ∈ primitiveNames) :
    t.FlatArgument := by
  cases t with
  | primitive s => exact List.mem_append_left _ (h s List.mem_cons_self)
  | sequence elem =>
      cases elem with
      | primitive s => exact h s List.mem_cons_self
      | _ => trivial
  | _ => trivial

lemma flatResult_of_scalars {fallible : Bool} {t : BoundaryType}
    (h : ∀ s ∈ t.scalars, s ∈ primitiveNames) : t.FlatResult fallible := by
  cases t with
  | primitive s =>
      have hflat : s ∈ flatTypes := List.mem_append_left _ (h s List.mem_cons_self)
      cases fallible with
      | true => exact Or.inl hflat
      | false => exact Or.inr hflat
  | _ => trivial

end BoundaryType

namespace Descriptor

lemma types_argumentParameters {name : String} {t : BoundaryType} {ps : List Parameter}
    (ht : t.IsArgument) (h : argumentParameters name t = .ok ps) :
    ps.map (fun p => (p.isOut, p.typeText)) = t.argumentTypes.map fun s => (false, s) := by
  cases ht with
  | simple hsimple => cases hsimple <;> cases h <;> rfl
  | sharedRef s params => cases h; rfl
  | mutRef s params => cases h; rfl
  | sequence s => cases h; rfl
  | enum s hvariants => cases h; rfl

lemma types_resultParameters {fallible : Bool} {t : BoundaryType} {ps : List Parameter}
    (ht : t.IsResult fallible) (h : resultParameters fallible (some t) = .ok ps) :
    ps.map (fun p => (p.isOut, p.typeText)) = (t.resultTypes fallible).map fun s => (true, s) := by
  cases ht with
  | simple hsimple =>
      cases hsimple with
      | primitive s => cases fallible <;> cases h <;> rfl
      | struct s params => cases h; rfl
  | sharedRef hsimple => cases h; rfl
  | mutRef hsimple => cases h; rfl
  | sequence hprotocol hsimple => cases hsimple <;> cases h <;> rfl

/-- The types of all the parameters, and whether they are out-pointers: that of the receiver, those
of each argument and those of the result. -/
def shownTypes (d : Descriptor) : List (Bool × String) :=
  (if d.hasReceiver then [(false, opaquePointer)] else []) ++
    d.args.flatMap (fun a => a.2.argumentTypes.map fun s => (false, s)) ++
      (d.ret.elim [] (·.resultTypes d.fallible)).map fun s => (true, s)

lemma types_parameters {d : Descriptor} {ps : List Parameter} (hd : d.Acceptable)
    (h : d.parameters = .ok ps) : ps.map (fun p => (p.isOut, p.typeText)) = d.shownTypes := by
  obtain ⟨args, hargs, h⟩ := bind_eq_ok.mp h
  obtain ⟨result, hresult, h⟩ := bind_eq_ok.mp h
  have hargs := (List.forall₂_and_left _ _).mpr
    ⟨fun a ha => (hd.argTypes a ha).2, mapM_eq_ok.mp hargs⟩
  have hshown := Listwise.flatMap_eq hargs
    (f := fun a => a.2.argumentTypes.map fun s => (false, s))
    (g := List.map fun p => (p.isOut, p.typeText))
    fun a ps hps => (types_argumentParameters hps.1 hps.2).symm
  have hreceiver : (if d.hasReceiver then [Parameter.receiver] else []).map
      (fun p => (p.isOut, p.typeText)) =
        if d.hasReceiver then [(false, opaquePointer)] else [] := by
    cases d.hasReceiver <;> rfl
  have hout : result.map (fun p => (p.isOut, p.typeText)) =
      (d.ret.elim [] (·.resultTypes d.fallible)).map fun s => (true, s) := by
    cases hret : d.ret with
    | none =>
        rw [hret] at hresult
        cases hresult
        rfl
    | some t =>
        rw [hret] at hresult
        exact types_resultParameters (hd.result t hret).2 hresult
  rw [← pure_eq_ok.mp h, List.map_append, List.map_append, hreceiver, hout, List.map_flatten,
    ← List.flatMap_def, ← hshown, shownTypes]

/-- All the scalars that a descriptor puts into its signature are flat. -/
def FlatScalars (d : Descriptor) : Prop :=
  (∀ a ∈ d.args, a.2.FlatArgument) ∧ ∀ t ∈ d.ret, t.FlatResult d.fallible

/-- A surface is flat if and only if its scalars are. -/
theorem flat_iff {d : Descriptor} (hd : d.Acceptable) (a : Assembly d) :
    a.signature.Flat ↔ d.FlatScalars := by
  have hpointer : opaquePointer ∈ flatTypes := by decide
  have hsentinel : sentinelType ∈ flatTypes := by decide
  have hparams : (∀ p ∈ a.params, p.Flat) ↔
      (∀ b ∈ d.args, ∀ s ∈ b.2.argumentTypes, s ∈ flatTypes) ∧
        ∀ t ∈ d.ret, ∀ s ∈ t.resultTypes d.fallible, s ∈ flatOutTypes := by
    have hshown : (∀ p ∈ a.params, p.Flat) ↔
        ∀ x ∈ d.shownTypes, x.2 ∈ if x.1 then flatOutTypes else flatTypes := by
      rw [← types_parameters hd a.params_eq, List.forall_mem_map]
      rfl
    have hreceiver : ∀ x ∈ (if d.hasReceiver then [(false, opaquePointer)] else []),
        x.2 ∈ if x.1 then flatOutTypes else flatTypes := by
      split <;> simp [hpointer]
    rw [hshown, shownTypes, List.forall_mem_append, List.forall_mem_append,
      and_iff_right hreceiver, List.forall_mem_flatMap]
    refine and_congr ?_ ?_
    · simp only [List.forall_mem_map, Bool.false_eq_true, if_false]
    · cases d.ret <;> simp
  have hresult : (∀ r ∈ a.signature.result, r = "" ∨ r ∈ flatTypes) ↔
      ∀ t ∈ d.ret, ∀ s, t = .primitive s → d.fallible = false → s = "" ∨ s ∈ flatTypes := by
    rw [Signature.result, Assembly.signature, nativeReturn]
    cases d.fallible with
    | true => simp [hsentinel]
    | false =>
        cases d.ret with
        | none => simp
        | some t => cases t <;> simp
  have hflat : a.signature.Flat ↔ (∀ p ∈ a.params, p.Flat) ∧
      ∀ r ∈ a.signature.result, r = "" ∨ r ∈ flatTypes :=
    ⟨fun h => ⟨h.params, h.result⟩, fun h => ⟨h.1, h.2⟩⟩
  rw [hflat, hparams, hresult, and_assoc, ← forall₂_and, FlatScalars]
  exact and_congr (forall₂_congr fun b hb => BoundaryType.flatArgument_iff (hd.argTypes b hb).2)
    (forall₂_congr fun t ht => BoundaryType.flatResult_iff (hd.result t ht).2)

/-- Scalars of the native language are flat. -/
lemma flatScalars_of_scalars {d : Descriptor}
    (h : ∀ s ∈ d.scalars, s ∈ BoundaryType.primitiveNames) : d.FlatScalars := by
  have hscalars : ∀ t ∈ d.owner.toList ++ d.args.map Prod.snd ++ d.ret.toList,
      ∀ s ∈ t.scalars, s ∈ BoundaryType.primitiveNames :=
    fun t ht s hs => h s (BoundaryType.scalars_subset_scalarsAll ht hs)
  constructor
  · intro a ha
    exact BoundaryType.flatArgument_of_scalars
      (hscalars a.2 (by simp [List.mem_map_of_mem (f := Prod.snd) ha]))
  · intro t ht
    exact BoundaryType.flatResult_of_scalars (hscalars t (by simp [Option.mem_def.mp ht]))

end Descriptor

/-- What the surface of a wrapper is made of. -/
structure ExportedSurface (d : Descriptor) (w : Wrapper) : Prop where
  /-- The types of the parameters are those of the receiver, of the arguments and of the result,
  and those of the result alone are out-pointers. -/
  types : w.signature.params.map (fun p => (p.isOut, p.typeText)) =
    (if d.hasReceiver then [(false, opaquePointer)] else []) ++
      d.args.flatMap (fun a => a.2.argumentTypes.map fun s => (false, s)) ++
        (d.ret.elim [] (·.resultTypes d.fallible)).map fun s => (true, s)
  /-- The surface is flat exactly if the scalars in the types of arguments and result are. -/
  flat_iff : w.signature.Flat ↔
    (∀ a ∈ d.args, a.2.FlatArgument) ∧ ∀ t ∈ d.ret, t.FlatResult d.fallible
  /-- It is flat if the scalars are those of the native language. -/
  flat : (∀ s ∈ d.scalars, s ∈ BoundaryType.primitiveNames) → w.signature.Flat

/-- **The exported surface.** Every parameter of a wrapper has the type that its argument or result
is shown as, all of which are flat but for scalars, which are shown as they are given; so the
surface is flat exactly if its scalars are. -/
theorem exportedSurface_of_compile (d : Descriptor) (w : Wrapper) (h : d.compile = .ok w) :
    ExportedSurface d w := by
  have hd := Descriptor.acceptable_of_compile h
  obtain ⟨a, rfl⟩ := Descriptor.exists_assembly h
  exact ⟨Descriptor.types_parameters hd a.params_eq, Descriptor.flat_iff hd a,
    fun hscalars => (Descriptor.flat_iff hd a).mpr (Descriptor.flatScalars_of_scalars hscalars)⟩

/-- The surface of a method. -/
theorem exportedSurface_exchange :
    ∃ w, Descriptor.exchange.compile = .ok w ∧ ExportedSurface Descriptor.exchange w ∧
      w.signature.Flat := by
  have hsurface := exportedSurface_of_compile Descriptor.exchange _ rfl
  exact ⟨_, rfl, hsurface, hsurface.flat (by decide)⟩

/-- A function whose argument is a scalar of another name. -/
def Descriptor.rename : Descriptor where
  funcName := "rename"
  args := [("name", .primitive "String")]

/-- It has a wrapper, and its surface is not flat. -/
theorem surface_rename_not_flat :
    ∃ w, Descriptor.rename.compile = .ok w ∧ w.signature.header =
        ["#[no_mangle]", "pub extern \"C\" fn rename(name: String) \x7b"] ∧
      ¬w.signature.Flat := by
  have hnot : "String" ∉ flatTypes := by decide
  exact ⟨_, rfl, by decide, fun h => hnot (h.params _ List.mem_cons_self)⟩

end AbiBridge
