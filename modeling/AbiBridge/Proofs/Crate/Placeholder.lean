import AbiBridge.Proofs.Crate.Atomicity

/-!
What is left of the placeholder.

The owner takes the place of the placeholder where it stands alone. A struct of its name that has
generic arguments is no placeholder to the replacement and one to the search, so it stays, and a
method with such a type is refused.

* `BoundaryType.AppliesSelf`: the types with such a struct at some depth;
* `exists_resolveSelf`: what the replacement leaves of a known type mentions the placeholder if and
  only if the type is one of them;
* `Descriptor.faultsAs_validate`: a placeholder is reported only where one is found;
* `Registering.leavesApplied_of_mentionsSelf`: methods are refused for a leftover placeholder only
  for these types, and always for them.
-/

namespace AbiBridge

open Outcome

namespace BoundaryType

/-! ### Types that apply the placeholder -/

/-- The types of the known family, which have no part outside of it. -/
inductive Known : BoundaryType → Prop where
  | primitive (name : String) : Known (.primitive name)
  | struct (name : String) {params : List BoundaryType} (params_known : ∀ t ∈ params, Known t) :
      Known (.struct name params)
  | sharedRef {inner : BoundaryType} (known : Known inner) : Known (.sharedRef inner)
  | mutRef {inner : BoundaryType} (known : Known inner) : Known (.mutRef inner)
  | sequence {elem : BoundaryType} (known : Known elem) : Known (.sequence elem)
  | enum (name : String) (variants : List String) : Known (.enum name variants)

/-- The types in which the placeholder is given generic arguments. -/
inductive AppliesSelf : BoundaryType → Prop where
  | here {params : List BoundaryType} (nonempty : params ≠ []) :
      AppliesSelf (.struct selfPlaceholder params)
  | param (name : String) {params : List BoundaryType} {t : BoundaryType} (mem : t ∈ params)
      (applied : AppliesSelf t) : AppliesSelf (.struct name params)
  | sharedRef {inner : BoundaryType} (applied : AppliesSelf inner) : AppliesSelf (.sharedRef inner)
  | mutRef {inner : BoundaryType} (applied : AppliesSelf inner) : AppliesSelf (.mutRef inner)
  | sequence {elem : BoundaryType} (applied : AppliesSelf elem) : AppliesSelf (.sequence elem)

/-- In the left type a mention is searched for with an answer, which is whether the right one
applies the placeholder. -/
def ToldBy (t' t : BoundaryType) : Prop :=
  ∃ b, t'.mentionsSelf = .ok b ∧ (b = true ↔ t.AppliesSelf)

/-- The search of a list finds what it finds at one of the members. -/
lemma exists_anyMentionsSelf {ts' ts : List BoundaryType} (h : List.Forall₂ ToldBy ts' ts) :
    ∃ b, anyMentionsSelf ts' = .ok b ∧ (b = true ↔ ∃ t ∈ ts, t.AppliesSelf) := by
  induction h with
  | nil => exact ⟨false, rfl, by simp⟩
  | @cons t' t ts' ts htold _ ih =>
      obtain ⟨b, hb, happlied⟩ := htold
      rw [anyMentionsSelf, hb]
      cases b with
      | true =>
          exact ⟨true, rfl, fun _ => ⟨t, List.mem_cons_self, happlied.mp rfl⟩, fun _ => rfl⟩
      | false =>
          obtain ⟨b', hb', happlied'⟩ := ih
          refine ⟨b', hb', happlied'.trans ?_⟩
          rw [List.exists_mem_cons_iff]
          exact ⟨Or.inr, fun hor => hor.resolve_left fun ht =>
            absurd (happlied.mpr ht) Bool.false_ne_true⟩

/-- A struct applies the placeholder itself, or one of its arguments does. -/
lemma appliesSelf_struct_iff {name : String} {params : List BoundaryType} :
    (struct name params).AppliesSelf ↔
      (name = selfPlaceholder ∧ params ≠ []) ∨ ∃ t ∈ params, t.AppliesSelf := by
  constructor
  · intro h
    cases h with
    | here hnonempty => exact Or.inl ⟨rfl, hnonempty⟩
    | param _ hmem happlied => exact Or.inr ⟨_, hmem, happlied⟩
  · rintro (⟨rfl, hnonempty⟩ | ⟨t, hmem, happlied⟩)
    · exact .here hnonempty
    · exact .param name hmem happlied

lemma appliesSelf_sharedRef_iff {t : BoundaryType} :
    (sharedRef t).AppliesSelf ↔ t.AppliesSelf := by
  refine ⟨fun h => ?_, .sharedRef⟩
  cases h with
  | sharedRef happlied => exact happlied

lemma appliesSelf_mutRef_iff {t : BoundaryType} : (mutRef t).AppliesSelf ↔ t.AppliesSelf := by
  refine ⟨fun h => ?_, .mutRef⟩
  cases h with
  | mutRef happlied => exact happlied

lemma appliesSelf_sequence_iff {t : BoundaryType} : (sequence t).AppliesSelf ↔ t.AppliesSelf := by
  refine ⟨fun h => ?_, .sequence⟩
  cases h with
  | sequence happlied => exact happlied

/-- What the replacement leaves of a known type mentions the placeholder if and only if the type
applies it. -/
theorem exists_resolveSelf {t owner : BoundaryType} (howner : owner.mentionsSelf = .ok false)
    (h : t.Known) : ∃ t', t.resolveSelf owner = .ok t' ∧ ToldBy t' t := by
  induction h with
  | primitive name => exact ⟨_, rfl, false, rfl, nofun, nofun⟩
  | enum name variants => exact ⟨_, rfl, false, rfl, nofun, nofun⟩
  | @struct name params _ ih =>
      rw [resolveSelf]
      simp only [ToldBy, appliesSelf_struct_iff]
      by_cases hplace : name = selfPlaceholder ∧ params = []
      · -- the placeholder itself, where the owner is put
        obtain ⟨rfl, rfl⟩ := hplace
        exact ⟨owner, rfl, false, howner, by simp⟩
      · rw [if_neg hplace]
        obtain ⟨params', hparams, htold⟩ := exists_mapM_rel ih
        have hall : resolveSelfAll params owner = .ok params' :=
          resolveSelfAll_eq_ok_iff.mpr (mapM_eq_ok.mp hparams)
        refine ⟨.struct name params', by rw [hall]; rfl, ?_⟩
        rw [mentionsSelf]
        by_cases hself : name = selfPlaceholder
        · have hnonempty : params ≠ [] := fun hnil => hplace ⟨hself, hnil⟩
          exact ⟨true, if_pos hself, fun _ => Or.inl ⟨hself, hnonempty⟩, fun _ => rfl⟩
        · obtain ⟨b, hb, happlied⟩ := exists_anyMentionsSelf htold
          rw [if_neg hself]
          exact ⟨b, hb, happlied.trans ⟨Or.inr, fun hor => hor.resolve_left fun h => hself h.1⟩⟩
  | sharedRef _ ih =>
      obtain ⟨t', ht', b, hb, happlied⟩ := ih
      refine ⟨.sharedRef t', by rw [resolveSelf, ht']; rfl, b, hb, ?_⟩
      exact happlied.trans appliesSelf_sharedRef_iff.symm
  | mutRef _ ih =>
      obtain ⟨t', ht', b, hb, happlied⟩ := ih
      refine ⟨.mutRef t', by rw [resolveSelf, ht']; rfl, b, hb, ?_⟩
      exact happlied.trans appliesSelf_mutRef_iff.symm
  | sequence _ ih =>
      obtain ⟨t', ht', b, hb, happlied⟩ := ih
      refine ⟨.sequence t', by rw [resolveSelf, ht']; rfl, b, hb, ?_⟩
      exact happlied.trans appliesSelf_sequence_iff.symm

/-- A type from which the placeholder was replaced is known. -/
lemma known_of_resolveSelf {t t' owner : BoundaryType} (h : t.resolveSelf owner = .ok t') :
    t.Known := by
  induction t using ind generalizing t' with
  | primitive name => exact .primitive name
  | struct name params ih =>
      rw [resolveSelf] at h
      split at h
      · next hplace =>
        rw [hplace.2]
        exact .struct name fun _ ht => absurd ht List.not_mem_nil
      · obtain ⟨params', hparams, -⟩ := bind_eq_ok.mp h
        refine .struct name fun t ht => ?_
        obtain ⟨t', -, ht'⟩ :=
          Listwise.exists_of_mem_right (resolveSelfAll_eq_ok_iff.mp hparams).flip ht
        exact ih t ht ht'
  | sharedRef inner ih =>
      obtain ⟨inner', hinner, -⟩ := bind_eq_ok.mp h
      exact .sharedRef (ih hinner)
  | mutRef inner ih =>
      obtain ⟨inner', hinner, -⟩ := bind_eq_ok.mp h
      exact .mutRef (ih hinner)
  | sequence elem ih =>
      obtain ⟨elem', helem, -⟩ := bind_eq_ok.mp h
      exact .sequence (ih helem)
  | enum name variants => exact .enum name variants
  | unknown => cases h

/-- The search finds the placeholder in a type where it was replaced exactly if it was applied. -/
lemma mentionsSelf_of_resolveSelf {t t' owner : BoundaryType}
    (howner : owner.mentionsSelf = .ok false) (h : t.resolveSelf owner = .ok t') :
    ToldBy t' t := by
  obtain ⟨s, hs, htold⟩ := exists_resolveSelf howner (known_of_resolveSelf h)
  cases hs.symm.trans h
  exact htold

end BoundaryType

/-! ### Descriptors -/

/-- A leftover placeholder is reported of a type that mentions it. -/
def DescriptorFault.FoundIn (args : List (String × BoundaryType)) (ret : Option BoundaryType) :
    DescriptorFault → Prop
  | .argumentMentionsSelf x => ∃ t, (x, t) ∈ args ∧ t.mentionsSelf = .ok true
  | .resultMentionsSelf _ => ∃ t ∈ ret, t.mentionsSelf = .ok true
  | _ => True

namespace BoundaryType

variable {args : List (String × BoundaryType)} {ret : Option BoundaryType}

lemma faultsAs_checkArgument (name : String) (t : BoundaryType) :
    FaultsAs (DescriptorFault.FoundIn args ret) (t.checkArgument name) := by
  refine FaultsAs.bind (.mapError fun _ => trivial) fun _ => ?_
  split
  case h_9 =>
    split
    · exact .throw trivial
    · exact .pure _
  all_goals first | exact .pure _ | exact .throw trivial

lemma faultsAs_checkResult (fallible : Bool) (t : BoundaryType) :
    FaultsAs (DescriptorFault.FoundIn args ret) (t.checkResult fallible) := by
  refine FaultsAs.bind (.mapError fun _ => trivial) fun _ => ?_
  split
  case h_9 =>
    refine .guard trivial ?_
    split <;> first | exact .pure _ | exact .throw trivial
  all_goals first | exact .pure _ | exact .throw trivial

end BoundaryType

namespace Descriptor

variable {args : List (String × BoundaryType)} {ret : Option BoundaryType}

/-- A guard against the placeholder reports nothing where nothing is found. -/
lemma faultsAs_mentionsSelf_guard {t : BoundaryType} {fault : DescriptorFault}
    {f : Unit → Except DescriptorFault Unit} {x : Except DescriptorFault Unit}
    (hfound : t.mentionsSelf = .ok true → fault.FoundIn args ret)
    (hx : FaultsAs (DescriptorFault.FoundIn args ret) x) :
    FaultsAs (DescriptorFault.FoundIn args ret)
      (t.mentionsSelf.mapError DescriptorFault.illegalType >>= fun b =>
        if b = true then throw fault >>= f else x) := by
  cases hmentions : t.mentionsSelf with
  | error e => exact FaultsAs.throw (e := DescriptorFault.illegalType e) trivial
  | ok b =>
      cases b with
      | true => exact FaultsAs.throw (hfound hmentions)
      | false => exact hx

lemma faultsAs_checkOwner (d : Descriptor) :
    FaultsAs (DescriptorFault.FoundIn args ret) d.checkOwner := by
  rw [checkOwner.eq_def]
  split
  · split
    · exact .throw trivial
    · exact .pure _
  · exact faultsAs_mentionsSelf_guard (fun _ => trivial) (.mapError fun _ => trivial)
  · exact .throw trivial

lemma faultsAs_checkArgumentNames (seen : List String) (l : List (String × BoundaryType)) :
    FaultsAs (DescriptorFault.FoundIn args ret) (checkArgumentNames seen l) := by
  induction l generalizing seen with
  | nil => exact .pure _
  | cons a l ih =>
      rw [checkArgumentNames.eq_def]
      refine FaultsAs.bind (.mapError fun _ => trivial) fun _ => ?_
      refine .guard trivial (.guard trivial ?_)
      split
      · exact .guard trivial (ih _)
      · exact ih _

/-- A leftover placeholder is reported only where one is found. -/
theorem faultsAs_validate (d : Descriptor) :
    FaultsAs (DescriptorFault.FoundIn d.args d.ret) d.validate := by
  refine FaultsAs.bind (.mapError fun _ => trivial) fun _ => ?_
  refine FaultsAs.bind (.option_forM fun _ _ => .mapError fun _ => trivial) fun _ => ?_
  refine (faultsAs_checkOwner d).bind fun _ => ?_
  refine (faultsAs_checkArgumentNames [] d.args).bind fun _ => ?_
  refine FaultsAs.bind (.forM fun a ha => ?_) fun _ => .option_forM fun t ht => ?_
  · refine faultsAs_mentionsSelf_guard (fun hfound => ⟨a.2, ha, hfound⟩) ?_
    exact FaultsAs.bind (.mapError fun _ => trivial) fun _ =>
      BoundaryType.faultsAs_checkArgument a.1 a.2
  · refine faultsAs_mentionsSelf_guard (fun hfound => ⟨t, ht, hfound⟩) ?_
    exact FaultsAs.bind (.mapError fun _ => trivial) fun _ =>
      BoundaryType.faultsAs_checkResult d.fallible t

lemma faultsAs_compile (d : Descriptor) :
    FaultsAs (DescriptorFault.FoundIn d.args d.ret) d.compile :=
  (faultsAs_validate d).bind fun _ => .mapError fun _ => trivial

/-- Some type of the descriptor applies the placeholder. -/
def AppliesSelf (d : Descriptor) : Prop :=
  (∃ a ∈ d.args, a.2.AppliesSelf) ∨ ∃ t ∈ d.ret, t.AppliesSelf

/-- Where the owner was put in, the types of a descriptor tell of those that it had before. -/
lemma toldBy_of_resolved {d d' : Descriptor} {owner : BoundaryType}
    (howner : owner.mentionsSelf = .ok false) (h : Registering.resolved d owner = .ok d') :
    List.Forall₂ (fun a' a => a'.1 = a.1 ∧ a'.2.ToldBy a.2) d'.args d.args ∧
      Option.Rel BoundaryType.ToldBy d'.ret d.ret := by
  obtain ⟨args, hargs, h⟩ := bind_eq_ok.mp h
  obtain ⟨ret, hret, h⟩ := bind_eq_ok.mp h
  cases h
  constructor
  · refine ((mapM_eq_ok.mp hargs).imp fun a a' ha => ?_).flip
    obtain ⟨t', ht', h⟩ := bind_eq_ok.mp ha
    cases h
    exact ⟨rfl, BoundaryType.mentionsSelf_of_resolveSelf howner ht'⟩
  · rw [option_mapM_eq_ok] at hret
    generalize d.ret = old at hret
    cases hret with
    | none => exact .none
    | some ht => exact .some (BoundaryType.mentionsSelf_of_resolveSelf howner ht)

/-- A descriptor that has a wrapper once the owner was put in applies the placeholder nowhere. -/
lemma not_appliesSelf_of_compile {d d' : Descriptor} {owner : BoundaryType} {w : Wrapper}
    (howner : owner.mentionsSelf = .ok false) (h : Registering.resolved d owner = .ok d')
    (hcompile : d'.compile = .ok w) : ¬d.AppliesSelf := by
  have hacceptable := acceptable_of_compile hcompile
  have hplain : ∀ {t' t : BoundaryType}, t'.Named → t'.ToldBy t → ¬t.AppliesSelf := by
    rintro t' t hnamed ⟨b, hb, happlied⟩ ht
    have hfree := ((BoundaryType.named_iff t').mp hnamed).1
    rw [happlied.mpr ht, hfree] at hb
    cases hb
  obtain ⟨hargs, hret⟩ := toldBy_of_resolved howner h
  rintro (⟨a, ha, happlied⟩ | ⟨t, ht, happlied⟩)
  · obtain ⟨a', ha', -, htold⟩ := Listwise.exists_of_mem_right hargs ha
    exact hplain (hacceptable.argTypes a' ha').1 htold happlied
  · rw [Option.mem_def.mp ht] at hret
    cases hnew : d'.ret with
    | none =>
        rw [hnew] at hret
        cases hret
    | some t' =>
        rw [hnew] at hret
        cases hret with
        | some htold => exact hplain (hacceptable.result t' hnew).1 htold happlied

end Descriptor

/-- What an owner that does not mention the placeholder makes of it. -/
structure LeavesApplied (name : String) (params : List BoundaryType) : Prop where
  /-- In every known type the owner takes the place of the placeholder, and the placeholder is
  mentioned afterwards if and only if the type applied it. -/
  replaced : ∀ t : BoundaryType, t.Known → ∃ t' b, t.resolveSelf (.struct name params) = .ok t' ∧
    t'.mentionsSelf = .ok b ∧ (b = true ↔ t.AppliesSelf)
  /-- A method is refused for a placeholder that is left in an argument only if the type of that
  argument applies it. -/
  argument : ∀ d x c c', Registering.addMethod (some (.struct name params)) d c =
    .error (.descriptor (.argumentMentionsSelf x)) c' → ∃ t, (x, t) ∈ d.args ∧ t.AppliesSelf
  /-- And for one that is left in the result only if the type of the result applies it. -/
  result : ∀ d f c c', Registering.addMethod (some (.struct name params)) d c =
    .error (.descriptor (.resultMentionsSelf f)) c' → ∃ t ∈ d.ret, t.AppliesSelf
  /-- A method with such a type is never registered. -/
  refused : ∀ d : Descriptor, d.AppliesSelf → ∀ c, ∃ fault,
    Registering.addMethod (some (.struct name params)) d c = .error fault c

namespace Registering

/-- A method that is refused for its descriptor is one whose resolved descriptor has no wrapper. -/
lemma exists_of_addMethod_eq_error {name : String} {params : List BoundaryType} {d : Descriptor}
    {c c' : Crate} {fault : DescriptorFault}
    (h : addMethod (some (.struct name params)) d c = .error (.descriptor fault) c') :
    ∃ d', resolved d (.struct name params) = .ok d' ∧ d'.compile = .error fault := by
  rw [addMethod] at h
  cases hresolved : resolved d (.struct name params) with
  | error e =>
      rw [hresolved] at h
      cases h
  | ok d' =>
      rw [hresolved] at h
      have h : register d' c = .error (.descriptor fault) c' := h
      refine ⟨d', rfl, ?_⟩
      cases hcompile : d'.compile with
      | error e =>
          rw [register_of_error hcompile] at h
          cases h
          rfl
      | ok w =>
          have houtcome := exportOutcome_register hcompile c
          rw [h] at houtcome
          cases houtcome

/-- **The placeholder where it is applied.** An owner that does not mention the placeholder takes
its place in every known type, except where the placeholder is given generic arguments: there it
stays, methods are refused for it only then, and always then. -/
theorem leavesApplied_of_mentionsSelf (name : String) (params : List BoundaryType)
    (howner : (BoundaryType.struct name params).mentionsSelf = .ok false) :
    LeavesApplied name params where
  replaced := fun t ht => by
    obtain ⟨t', ht', b, hb, happlied⟩ := BoundaryType.exists_resolveSelf howner ht
    exact ⟨t', b, ht', hb, happlied⟩
  argument := fun d x c c' h => by
    obtain ⟨d', hresolved, hcompile⟩ := exists_of_addMethod_eq_error h
    obtain ⟨t', hmem, hfound⟩ := d'.faultsAs_compile _ hcompile
    obtain ⟨hargs, -⟩ := Descriptor.toldBy_of_resolved howner hresolved
    obtain ⟨a, ha, hname, b, hb, happlied⟩ := Listwise.exists_of_mem_right hargs.flip hmem
    cases hb.symm.trans hfound
    have hname : x = a.1 := hname
    exact ⟨a.2, hname ▸ ha, happlied.mp rfl⟩
  result := fun d f c c' h => by
    obtain ⟨d', hresolved, hcompile⟩ := exists_of_addMethod_eq_error h
    obtain ⟨t', hmem, hfound⟩ := d'.faultsAs_compile _ hcompile
    obtain ⟨-, hret⟩ := Descriptor.toldBy_of_resolved howner hresolved
    rw [Option.mem_def.mp hmem] at hret
    generalize d.ret = old at hret
    cases hret with
    | some htold =>
        obtain ⟨b, hb, happlied⟩ := htold
        cases hb.symm.trans hfound
        exact ⟨_, rfl, happlied.mp rfl⟩
  refused := fun d hd c => by
    have houtcome := functionOutcome_addMethod (some (.struct name params)) d c
    generalize addMethod (some (.struct name params)) d c = outcome at houtcome
    cases houtcome with
    | refused fault => exact ⟨fault, rfl⟩
    | @registered d' w c' hasked hcompiled =>
        have hresolved : resolved d (.struct name params) = .ok d' := by
          rw [Descriptor.on?] at hasked
          cases h : resolved d (.struct name params) with
          | error e =>
              rw [h] at hasked
              cases hasked
          | ok d₁ =>
              rw [h] at hasked
              cases hasked
              rfl
        exact absurd hd (Descriptor.not_appliesSelf_of_compile howner hresolved hcompiled)

/-- An owner without arguments. -/
theorem leavesApplied_conn :
    (BoundaryType.struct "Conn" []).mentionsSelf = .ok false ∧ LeavesApplied "Conn" [] :=
  ⟨rfl, leavesApplied_of_mentionsSelf "Conn" [] rfl⟩

/-- The placeholder is left where it is applied to a scalar, and a method with an argument of that
type is refused for it. -/
theorem applied_self_left_conn :
    let owner := BoundaryType.struct "Conn" []
    let t := BoundaryType.struct "Self" [.primitive "u8"]
    let c := Crate.new "native" {} {}
    owner.mentionsSelf = .ok false ∧ t.resolveSelf owner = .ok t ∧ t.mentionsSelf = .ok true ∧
      addMethod (some owner) { funcName := "send", args := [("item", t)] } c =
        .error (.descriptor (.argumentMentionsSelf "item")) c :=
  ⟨rfl, rfl, rfl, rfl⟩

end Registering

end AbiBridge
