import AbiBridge.Proofs.Boundary.Substitution
import AbiBridge.Proofs.Manifest.Calls

/-!
The placeholder means the owner.

A function that is defined on a struct may write `Self` for it. Registering the function replaces
the placeholder in the types that were read, and an author can as well write the owner's text out in
the texts of the types. Both give the same crate.

* `Function.writeOut`: a function with the owner's text in the place of every placeholder;
* `Function.method`: the descriptor that is registered for a function on a struct, and
  `method_eq_ok_iff`, what it is made of;
* `method_writeOut`: it is the same where the owner is written out;
* `register_writeOut`: so a manifest in which owners are written out makes the same crate.
-/

namespace AbiBridge

open Outcome

namespace BoundaryType

/-- The keyword `mut` is no segment of a path that may be spliced. -/
lemma Named.firstSegment?_ne_mut {name : String} {params : List BoundaryType}
    (h : (BoundaryType.struct name params).Named) :
    (BoundaryType.struct name params).firstSegment? ≠ some "mut" := by
  cases h with
  | struct hpath _ _ =>
      obtain ⟨front, last, hsegments, hlast, hfront⟩ := hpath
      rw [firstSegment?, hsegments]
      intro hhead
      have hmem : "mut" ∈ front ++ [last] := List.mem_of_mem_head? hhead
      rcases List.mem_append.mp hmem with hmem | hmem
      · rcases hfront _ hmem with hname | hqualifier
        · exact hname.notKeyword (by decide)
        · exact absurd hqualifier (by decide)
      · rw [← List.mem_singleton.mp hmem] at hlast
        exact hlast.notKeyword (by decide)

end BoundaryType

namespace Manifest.Function

/-! ### Functions on a struct -/

/-- The function with the owner's text in the place of every placeholder in its types. -/
def writeOut (owner : String) (f : Function) : Function :=
  { f with
    args := f.args.map fun a => { a with type := Token.spliceText owner a.type }
    ret := f.ret.map (Token.spliceText owner) }

/-- The descriptor that is registered for a function which is defined on the given struct. -/
def method (enums : EnumTable) (owner : BoundaryType) (f : Function) :
    Except Failure Descriptor := do
  let d ← f.descriptor enums
  (Registering.resolved d owner).mapError .type

variable {enums : EnumTable} {f : Function} {ownerText name : String} {params : List BoundaryType}

/-- A function on a struct is registered by its descriptor with the placeholders replaced. -/
lemma register_eq_method (howned : f.owner = some ownerText)
    (hparsed : BoundaryType.parse enums ownerText = .ok (.struct name params)) :
    f.register enums = (MonadExcept.ofExcept (f.method enums (.struct name params)) >>= fun d =>
      discard (Registering.register d)) := by
  have howner : f.ownerType enums = .ok (some (.struct name params)) := by
    rw [ownerType, howned, nonempty_eq hparsed]
    rcases structOf_cases hparsed s!"Owner of '{f.name}'" with ⟨_, _, -, hok⟩ | ⟨hother, -⟩
    · exact congrArg (some <$> ·) hok
    · exact absurd rfl (hother name params)
  rw [register, method, howner]
  cases f.descriptor enums with
  | error failure => rfl
  | ok d =>
      change discard (Registering.addMethod (some (.struct name params)) d) =
        (MonadExcept.ofExcept ((Registering.resolved d (.struct name params)).mapError .type) >>= _)
      rw [Registering.addMethod]
      cases Registering.resolved d (.struct name params) <;> rfl

/-- A type that is read from the text and has the owner in the place of its placeholders. -/
abbrev ReadsOn (enums : EnumTable) (owner : BoundaryType) (text : String) (t' : BoundaryType) :
    Prop :=
  ∃ t, BoundaryType.parse enums text = .ok t ∧ t.resolveSelf owner = .ok t'

lemma typed_eq_ok_iff {a : Argument} {b : String × BoundaryType} :
    a.typed enums = .ok b ↔ a.name = b.1 ∧ BoundaryType.parse enums a.type = .ok b.2 := by
  rw [Argument.typed, typeOf, bind_eq_ok]
  simp only [mapError_eq_ok, pure_eq_ok, Prod.ext_iff]
  constructor
  · rintro ⟨t, ht, hname, rfl⟩
    exact ⟨hname, ht⟩
  · exact fun h => ⟨b.2, h.2, h.1, rfl⟩

/-- The descriptor is made of the types that are read, each with the owner in the place of its
placeholders. -/
lemma method_eq_ok_iff {owner : BoundaryType} {d : Descriptor} :
    f.method enums owner = .ok d ↔
      List.Forall₂ (fun a b => a.name = b.1 ∧ ReadsOn enums owner a.type b.2) f.args d.args ∧
        Option.Rel (ReadsOn enums owner) (nonempty f.ret) d.ret ∧
        d = { d with
          funcName := f.name, owner := some owner, receiver := f.receiver, fallible := f.fallible
          exportName := f.exportName } := by
  have hargs : List.Forall₂ (fun a b => a.name = b.1 ∧ ReadsOn enums owner a.type b.2)
      f.args d.args ↔ ∃ args, f.args.mapM (Argument.typed enums) = .ok args ∧
        (args.mapM fun a => return (a.1, ← a.2.resolveSelf owner)) = .ok d.args := by
    rw [mapM_mapM_eq_ok]
    refine iff_of_eq (congrArg (List.Forall₂ · _ _) ?_)
    funext a b
    simp only [typed_eq_ok_iff, bind_eq_ok, pure_eq_ok, Prod.ext_iff, Prod.exists, eq_iff_iff]
    constructor
    · rintro ⟨hname, t, ht, hresolved⟩
      exact ⟨b.1, t, ⟨hname, ht⟩, b.2, hresolved, rfl, rfl⟩
    · rintro ⟨_, t, ⟨hname, ht⟩, _, hresolved, rfl, rfl⟩
      exact ⟨hname, t, ht, hresolved⟩
  have hret : Option.Rel (ReadsOn enums owner) (nonempty f.ret) d.ret ↔
      ∃ ret, (nonempty f.ret).mapM (typeOf enums) = .ok ret ∧
        (ret.mapM fun t => t.resolveSelf owner) = .ok d.ret := by
    rw [option_mapM_mapM_eq_ok]
    simp only [typeOf, mapError_eq_ok]
  rw [method, descriptor, hargs, hret]
  simp only [bind_eq_ok, mapError_eq_ok, Registering.resolved, pure_eq_ok]
  constructor
  · rintro ⟨_, ⟨args, htyped, ret, hresult, rfl⟩, args', htyped', ret', hresult', rfl⟩
    exact ⟨⟨args, htyped, htyped'⟩, ⟨ret, hresult, hresult'⟩, rfl⟩
  · rintro ⟨⟨args, htyped, htyped'⟩, ⟨ret, hresult, hresult'⟩, hd⟩
    exact ⟨_, ⟨args, htyped, ret, hresult, rfl⟩, d.args, htyped', d.ret, hresult', hd.symm⟩

/-! ### The owner written out -/

/-- Where the owner's text stands in the place of the placeholders there is nothing left to replace,
and the type is the one that is read with the owner put in their place. -/
lemma readsOn_spliceText_iff
    (hparsed : BoundaryType.parse enums ownerText = .ok (.struct name params))
    (hplain : (BoundaryType.struct name params).mentionsSelf = .ok false)
    (hmut : (BoundaryType.struct name params).firstSegment? ≠ some "mut")
    (hself : enums.lookup selfPlaceholder = none) (text : String) (t' : BoundaryType) :
    ReadsOn enums (.struct name params) (Token.spliceText ownerText text) t' ↔
      ReadsOn enums (.struct name params) text t' := by
  have hread := BoundaryType.parse_spliceText hparsed hmut hself text
  constructor
  · rintro ⟨t, ht, hresolved⟩
    obtain ⟨u, hu, hut⟩ := (hread t).mp ht
    rw [BoundaryType.resolveSelf_resolveSelf hplain hut] at hresolved
    cases hresolved
    exact ⟨u, hu, hut⟩
  · rintro ⟨u, hu, hut⟩
    exact ⟨t', (hread t').mpr ⟨u, hu, hut⟩, BoundaryType.resolveSelf_resolveSelf hplain hut⟩

/-- A text is empty with the owner's text in it exactly if it was empty before. -/
lemma nonempty_map_spliceText (howner : ownerText ≠ "") (ret : Option String) :
    nonempty (ret.map (Token.spliceText ownerText)) =
      (nonempty ret).map (Token.spliceText ownerText) := by
  cases ret with
  | none => rfl
  | some text =>
      by_cases htext : text = ""
      · subst htext
        rw [Option.map_some, (Token.spliceText_eq_empty_iff howner).mpr rfl]
        rfl
      · simp [nonempty, Option.filter, Token.spliceText_eq_empty_iff howner, htext]

/-- The descriptor is the same where the owner is written out. -/
lemma method_writeOut
    (hparsed : BoundaryType.parse enums ownerText = .ok (.struct name params))
    (hplain : (BoundaryType.struct name params).mentionsSelf = .ok false)
    (hmut : (BoundaryType.struct name params).firstSegment? ≠ some "mut")
    (hself : enums.lookup selfPlaceholder = none) (d : Descriptor) :
    (f.writeOut ownerText).method enums (.struct name params) = .ok d ↔
      f.method enums (.struct name params) = .ok d := by
  have hreads := readsOn_spliceText_iff hparsed hplain hmut hself
  rw [method_eq_ok_iff, method_eq_ok_iff, writeOut, List.forall₂_map_left_iff,
    nonempty_map_spliceText (BoundaryType.ne_empty_of_parse hparsed)]
  have hret : Option.Rel (ReadsOn enums (.struct name params))
      ((nonempty f.ret).map (Token.spliceText ownerText)) d.ret ↔
        Option.Rel (ReadsOn enums (.struct name params)) (nonempty f.ret) d.ret := by
    generalize d.ret = ret
    cases nonempty f.ret with
    | none => exact Iff.rfl
    | some text =>
        constructor
        · rintro ⟨h⟩
          exact .some ((hreads text _).mp h)
        · rintro ⟨h⟩
          exact .some ((hreads text _).mpr h)
  simp only [hreads, hret]

/-- No function is registered on a struct that begins with the keyword `mut`. -/
lemma register_fails_of_mut (howned : f.owner = some ownerText)
    (hparsed : BoundaryType.parse enums ownerText = .ok (.struct name params))
    (hmut : (BoundaryType.struct name params).firstSegment? = some "mut") (c : Crate) :
    ∃ failure c', f.register enums c = .error failure c' := by
  rw [register_eq_method howned hparsed]
  cases hmethod : f.method enums (.struct name params) with
  | error failure => exact ⟨failure, c, rfl⟩
  | ok d =>
      have howner : d.owner = some (.struct name params) := by
        rw [(method_eq_ok_iff.mp hmethod).2.2]
      cases hcompile : d.compile with
      | error fault =>
          have hfail : discard (Registering.register d) c = .error (.descriptor fault) c :=
            run_bind_of_error (Registering.register_of_error hcompile c)
          exact ⟨_, c, hfail⟩
      | ok w =>
          have hnamed := ((Descriptor.acceptable_of_compile hcompile).owner _ howner).2
          exact absurd hmut hnamed.firstSegment?_ne_mut

/-- One function is the other one, or the other one with the owner written out, where that is a
struct that does not mention the placeholder itself. -/
inductive WritesOut (enums : EnumTable) (f : Function) : Function → Prop
  | same : WritesOut enums f f
  | owner {text name : String} {params : List BoundaryType} (owned : f.owner = some text)
      (parsed : BoundaryType.parse enums text = .ok (.struct name params))
      (plain : (BoundaryType.struct name params).mentionsSelf = .ok false) :
      WritesOut enums f (f.writeOut text)

/-- A function with the owner written out is registered as the function itself is. -/
lemma WritesOut.alike {f' : Function} (h : f.WritesOut enums f')
    (hself : enums.lookup selfPlaceholder = none) :
    Alike (f.register enums) (f'.register enums) := by
  cases h with
  | same => exact .refl _
  | @owner text name params howned hparsed hplain =>
      by_cases hmut : (BoundaryType.struct name params).firstSegment? = some "mut"
      · exact .of_fail (register_fails_of_mut howned hparsed hmut)
          (register_fails_of_mut (f := f.writeOut text) howned hparsed hmut)
      · rw [register_eq_method howned hparsed,
          register_eq_method (f := f.writeOut text) howned hparsed]
        exact .bind (.ofExcept fun d => (method_writeOut hparsed hplain hmut hself d).symm)
          fun _ => .refl _

end Manifest.Function

/-- **The placeholder means the owner.** Let some of the functions of a manifest have the text of
their owner in the place of every placeholder in the texts of their types, where the owner is a
struct that does not mention the placeholder; and let there be no enum of the placeholder's name.
Then the manifest makes the crate that it made before, with its descriptors, its signatures and its
library, or it is refused as it was before. -/
theorem register_writeOut (m : Manifest) (functions : List Manifest.Function)
    (hself : selfPlaceholder ∉ m.enums.map Prod.fst)
    (hwritten : List.Forall₂ (Manifest.Function.WritesOut m.enums) m.functions functions)
    (base : Path) (output : Option Path) (settings : Settings) (c : Crate) :
    m.register (m.newCrate base output settings) = .ok () c ↔
      Manifest.register { m with functions }
        (Manifest.newCrate { m with functions } base output settings) = .ok () c := by
  have hnone : m.enums.lookup selfPlaceholder = none := Assoc.lookup_eq_none_iff.mpr hself
  have halike : Alike m.register (Manifest.register { m with functions }) := by
    refine .bind (.refl _) fun _ => .bind (.refl _) fun _ => .bind (.refl _) fun _ => ?_
    exact .forM hwritten fun f f' hff' => hff'.alike hnone
  exact halike _ () c

/-- A method that borrows its owner, which has arguments, and gives a run of them. -/
theorem register_writeOut_pool :
    let f : Manifest.Function := {
      name := "split", owner := some "Pool<u8>", receiver := .ref
      args := [⟨"other", "& Self"⟩, ⟨"cell", "Cell<Cell<Self>, u8>"⟩], ret := some "Vec<Self>"
      fallible := true }
    let m : Manifest := { package := { name := "native" }, functions := [f] }
    let written := f.writeOut "Pool<u8>"
    written.args.map Manifest.Argument.type = ["& Pool<u8>", "Cell<Cell<Pool<u8>>, u8>"] ∧
      written.ret = some "Vec<Pool<u8>>" ∧
      ∃ c, m.register (m.newCrate {} none {}) = .ok () c ∧
        Manifest.register { m with functions := [written] } (m.newCrate {} none {}) = .ok () c := by
  intro f m written
  refine ⟨by decide +kernel, by decide +kernel, ?_⟩
  have hparsed : BoundaryType.parse m.enums "Pool<u8>" =
      .ok (.struct "Pool" [.primitive "u8"]) := by
    decide +kernel
  have hrun : m.register (m.newCrate {} none {}) =
      .ok () (after m.register (m.newCrate {} none {})) :=
    eq_ok_of_run'_eq_some (by decide +kernel)
  have hwritten : List.Forall₂ (Manifest.Function.WritesOut m.enums) m.functions [written] :=
    .cons (.owner rfl hparsed rfl) .nil
  exact ⟨_, hrun, (register_writeOut m [written] (by decide) hwritten {} none {} _).mp hrun⟩

end AbiBridge
