import AbiBridge.Proofs.Wrapper.Exit

/-!
Ownership of handles.

A handle comes into a wrapper as an opaque pointer. Whatever the wrapper does, it takes every handle
back once, and hands out again exactly those that it was only lent, so nothing is dropped twice and
nothing is lost.

* `KeepsHandles`, `KeepsAllHandles`: what has to hold on one way out, and on all of them;
* `keepsAllHandles_of_compile`: it does, for every descriptor that has a wrapper.
-/

namespace AbiBridge

open Outcome

/-! ### The discipline -/

/-- What has to hold on one way out of a wrapper. -/
structure KeepsHandles (d : Descriptor) (path : List Statement) : Prop where
  /-- Every handle is taken back once, as the struct that it points to, and nothing else is. -/
  reclaimed_once : ∀ h ∈ d.handles,
    ∃ s, h.ReclaimedBy s ∧ path.filter (·.reclaimed? = some h.name) = [s]
  reclaimed_in_order : path.filterMap Statement.reclaimed? = d.handles.map Handle.name
  /-- What the call took over is not handed out. -/
  consumed_kept : ∀ h ∈ d.handles, h.isConsumed = true →
    path.filter (·.released? = some h.name) = []
  /-- What was only lent is handed out once. -/
  lent_released_once : ∀ h ∈ d.handles, h.isConsumed = false →
    path.filter (·.released? = some h.name) = [.release h.name]
  released_in_order :
    path.filterMap Statement.released? = (Handle.lent d.handles).map Handle.name
  /-- The call is made once, with every handle back and none of them out again. -/
  around_call : ∃ call, d.invocation (d.args.map fun a => a.2.passed a.1) = .ok call ∧
    (path.filter (·.evaluates call)).length = 1 ∧
    Precede (·.isOf [.reclaim]) (·.evaluates call) path ∧
    Precede (·.evaluates call) (·.isOf [.release]) path

/-- What has to hold on all the ways out of a wrapper. -/
structure KeepsAllHandles (d : Descriptor) (w : Wrapper) : Prop where
  /-- The handles have names of their own, and each points to a struct. -/
  nodup_names : (d.handles.map Handle.name).Nodup
  target_struct : ∀ h ∈ d.handles, ∃ name params, h.target = .struct name params
  success : KeepsHandles d w.success
  /-- The result is written before a handle is out again. -/
  stores_first : Precede (·.isOf [.storeOut]) (·.isOf [.release]) w.success
  /-- There is one other way out if the wrapper is fallible, and none if it is not. -/
  failures_length : w.failures.length = if d.fallible then 1 else 0
  failure : ∀ path ∈ w.failures, KeepsHandles d path
  /-- The sentinel of failure is returned at the end, with every lent handle out again. -/
  return_last : ∀ path ∈ w.failures, path.getLast? = some (.line "return 1;") ∧
    Precede (·.isOf [.release]) (·.isOf [.line]) path

/-! ### Reading a path -/

section Path

variable {path : List Statement} {handles : List Handle}

lemma filter_reclaimed (path : List Statement) (name : String) :
    path.filter (·.reclaimed? = some name) =
      (path.filter (·.isOf [.reclaim])).filter (·.reclaimed? = some name) := by
  rw [List.filter_filter]
  refine List.filter_congr fun s _ => ?_
  cases s <;> simp [Statement.reclaimed?, Statement.isOf, Statement.kind]

lemma filterMap_reclaimed (path : List Statement) :
    path.filterMap Statement.reclaimed? =
      (path.filter (·.isOf [.reclaim])).filterMap Statement.reclaimed? := by
  rw [List.filterMap_filter]
  refine List.filterMap_congr fun s _ => ?_
  cases s <;> simp [Statement.reclaimed?, Statement.isOf, Statement.kind]

lemma filter_released (path : List Statement) (name : String) :
    path.filter (·.released? = some name) =
      (path.filter (·.isOf [.release])).filter (·.released? = some name) := by
  rw [List.filter_filter]
  refine List.filter_congr fun s _ => ?_
  cases s <;> simp [Statement.released?, Statement.isOf, Statement.kind]

lemma filterMap_released (path : List Statement) :
    path.filterMap Statement.released? =
      (path.filter (·.isOf [.release])).filterMap Statement.released? := by
  rw [List.filterMap_filter]
  refine List.filterMap_congr fun s _ => ?_
  cases s <;> simp [Statement.released?, Statement.isOf, Statement.kind]

/-- Names that are pairwise distinct stay so when they are looked for. -/
lemma nodup_map_some {handles : List Handle} (h : (handles.map Handle.name).Nodup) :
    (handles.map fun x => some x.name).Nodup := by
  have hsome := h.map fun _ _ => Option.some.inj
  rwa [List.map_map] at hsome

/-- Of handles taken back in order, each is taken back once. -/
lemma exists_filter_reclaimed (hnodup : (handles.map Handle.name).Nodup)
    (hpath : List.Forall₂ Handle.ReclaimedBy handles (path.filter (·.isOf [.reclaim])))
    {h : Handle} (hh : h ∈ handles) :
    ∃ s, h.ReclaimedBy s ∧ path.filter (·.reclaimed? = some h.name) = [s] := by
  rw [filter_reclaimed]
  refine Listwise.exists_filter_eq_singleton (fun h => some h.name) Statement.reclaimed? hpath ?_
    (nodup_map_some hnodup) hh
  rintro h s ⟨text, -, rfl⟩
  rfl

/-- The lent handles are handed out in order. -/
lemma forall₂_released
    (hpath : path.filter (·.isOf [.release]) = Handle.releases handles) :
    List.Forall₂ (fun h s => s = Statement.release h.name) (Handle.lent handles)
      (path.filter (·.isOf [.release])) := by
  rw [hpath, Handle.releases, List.forall₂_map_right_iff]
  exact List.forall₂_same.mpr fun _ _ => rfl

/-- Of lent handles handed out in order, each is handed out once. -/
lemma filter_released_of_lent (hnodup : (handles.map Handle.name).Nodup)
    (hpath : path.filter (·.isOf [.release]) = Handle.releases handles)
    {h : Handle} (hh : h ∈ handles) (hlent : h.isConsumed = false) :
    path.filter (·.released? = some h.name) = [.release h.name] := by
  have hsub : (Handle.lent handles).Sublist handles := List.filter_sublist
  have hmem : h ∈ Handle.lent handles := List.mem_filter.mpr ⟨hh, by rw [hlent]; rfl⟩
  obtain ⟨s, rfl, hs⟩ := Listwise.exists_filter_eq_singleton (fun h => some h.name)
    Statement.released? (forall₂_released hpath) (by rintro h s rfl; rfl)
    (nodup_map_some ((hsub.map Handle.name).nodup hnodup)) hmem
  rw [filter_released, hs]

/-- A handle that is not lent is not handed out. -/
lemma filter_released_of_consumed (hnodup : (handles.map Handle.name).Nodup)
    (hpath : path.filter (·.isOf [.release]) = Handle.releases handles)
    {h : Handle} (hh : h ∈ handles) (hconsumed : h.isConsumed = true) :
    path.filter (·.released? = some h.name) = [] := by
  rw [filter_released]
  refine Listwise.filter_eq_nil_of_notMem (fun h => some h.name) Statement.released?
    (forall₂_released hpath) (by rintro h s rfl; rfl) fun hmem => ?_
  obtain ⟨h', hh', heq⟩ := List.mem_map.mp hmem
  obtain ⟨hmem', hlent⟩ := List.mem_filter.mp hh'
  have hsame : h' = h := List.inj_on_of_nodup_map hnodup hmem' hh (Option.some.inj heq)
  rw [hsame, hconsumed] at hlent
  cases hlent

end Path

/-! ### The pieces -/

namespace RebuildRow

variable {name : String} {t : BoundaryType} {r : Rebuilt}

lemma handles (h : RebuildRow name t r) :
    List.Forall₂ Handle.ReclaimedBy (t.handles name) (r.steps.filter (·.isOf [.reclaim])) ∧
      r.releases = Handle.releases (t.handles name) ∧ r.expression = t.passed name := by
  cases h with
  | scalar s => exact ⟨.nil, rfl, rfl⟩
  | handle h text hhandles hname htext =>
      rw [hhandles]
      exact ⟨.cons ⟨text, htext, rfl⟩ .nil, rfl, rfl⟩
  | run elem text htext => exact ⟨.nil, rfl, rfl⟩
  | ordinal s vs =>
      refine ⟨?_, rfl, rfl⟩
      rw [(onlyOf_decodeEnum name s vs).filter_isOf_eq_nil (by simp)]
      exact .nil

/-- A match on the way to the call is over the argument that it decodes. -/
lemma evaluated_of_mem (h : RebuildRow name t r) {s : Statement} (hs : s ∈ r.steps) {e : String}
    (he : s.evaluated? = some e) : e = name := by
  cases h with
  | scalar u => cases hs
  | handle h text hhandles hname htext =>
      rw [List.mem_singleton.mp hs] at he
      cases he
  | run elem text htext =>
      rw [List.mem_singleton.mp hs] at he
      cases he
  | ordinal u vs =>
      rw [decodeEnum, List.mem_append, List.mem_cons, List.mem_map] at hs
      rcases hs with (rfl | ⟨v, -, rfl⟩) | hs
      · exact (Option.some.inj he).symm
      · cases he
      · rcases List.mem_cons.mp hs with rfl | hs
        · cases he
        · rw [List.mem_singleton.mp hs] at he
          cases he

end RebuildRow

lemma ReceiverRow.handles {d : Descriptor} {r : Rebuilt} (h : ReceiverRow d r) :
    List.Forall₂ Handle.ReclaimedBy d.receiverHandles (r.steps.filter (·.isOf [.reclaim])) ∧
      r.releases = Handle.releases d.receiverHandles := by
  cases h with
  | none hhandles =>
      rw [hhandles]
      exact ⟨.nil, rfl⟩
  | handle h text hhandles hname htext =>
      rw [hhandles]
      exact ⟨.cons ⟨text, htext, rfl⟩ .nil, rfl⟩

/-! ### The whole of a wrapper -/

namespace Descriptor

/-- A call is of the function, on the receiver if there is one, with all the arguments. -/
lemma exists_eq_of_invocation {d : Descriptor} {args : List String} {call : String}
    (h : d.invocation args = .ok call) :
    ∃ front, call = front ++ (d.funcName ++ "(" ++ ", ".intercalate args ++ ")") ∧
      (d.hasReceiver = true → front = receiverName ++ ".") := by
  rw [invocation] at h
  split at h
  · exact ⟨_, (pure_eq_ok.mp h).symm, fun _ => rfl⟩
  · next hreceiver =>
    split at h
    · obtain ⟨path, -, h⟩ := bind_eq_ok.mp h
      exact ⟨_, (pure_eq_ok.mp h).symm, fun hr => absurd hr hreceiver⟩
    · refine ⟨"", ?_, fun hr => absurd hr hreceiver⟩
      rw [String.empty_append]
      exact (pure_eq_ok.mp h).symm

/-- A call is no name. -/
lemma not_isName_of_invocation {d : Descriptor} {args : List String} {call : String}
    (h : d.invocation args = .ok call) : ¬Name.IsName call := by
  intro hname
  obtain ⟨front, rfl, -⟩ := exists_eq_of_invocation h
  have hmem : ')' ∈ (front ++ (d.funcName ++ "(" ++ ", ".intercalate args ++ ")")).toList := by
    simp
  rcases hname.isContinue_or_eq hmem with hc | hc <;> revert hc <;> decide

/-- The handles have pairwise distinct names. -/
lemma nodup_handles {d : Descriptor} (h : d.Acceptable) : (d.handles.map Handle.name).Nodup := by
  have hreceiver : (d.receiverHandles.map Handle.name).Sublist [receiverName] := by
    rw [receiverHandles.eq_def]
    cases d.owner <;> cases d.receiver <;> simp
  have hargs : ((d.args.flatMap fun a => a.2.handles a.1).map Handle.name).Sublist
      (d.args.map Prod.fst) := by
    rw [List.map_flatMap, List.map_eq_flatMap]
    refine List.Sublist.flatMap_right _ fun a _ => ?_
    obtain ⟨name, t⟩ := a
    cases t <;> simp [BoundaryType.handles]
  have hslots : (d.args.map Prod.fst).Sublist (d.args.flatMap slotNames) := by
    rw [List.map_eq_flatMap]
    refine List.Sublist.flatMap_right _ fun a _ => ?_
    obtain ⟨name, t⟩ := a
    cases t <;> simp [slotNames]
  have hnew : receiverName ∉ d.args.map Prod.fst := by
    intro hmem
    obtain ⟨a, ha, heq⟩ := List.mem_map.mp hmem
    exact (h.argNames a ha).2 (heq ▸ by decide)
  rw [handles, List.map_append]
  refine (hreceiver.append hargs).nodup ?_
  exact List.nodup_cons.mpr ⟨hnew, hslots.nodup h.distinct⟩

end Descriptor

namespace Assembly

variable {d : Descriptor} (a : Assembly d)

lemma reclaimed :
    List.Forall₂ Handle.ReclaimedBy d.handles (a.steps.filter (·.isOf [.reclaim])) := by
  rw [steps, List.filter_append, List.filter_flatMap]
  exact List.rel_append (receiverRow a.receiver_eq).handles.1
    (List.rel_flatMap a.args_eq fun _ _ h => (rebuildRow h).handles.1)

lemma releases_eq : a.releases = Handle.releases d.handles := by
  rw [releases, (receiverRow a.receiver_eq).handles.2, Descriptor.handles, Handle.releases_append,
    Handle.releases_flatMap]
  congr 1
  exact (Listwise.flatMap_eq a.args_eq fun _ _ h => (rebuildRow h).handles.2.1.symm).symm

lemma expressions_eq : a.args.map Rebuilt.expression = d.args.map fun b => b.2.passed b.1 := by
  rw [List.map_eq_flatMap, List.map_eq_flatMap]
  exact (Listwise.flatMap_eq a.args_eq fun _ _ h => by rw [(rebuildRow h).handles.2.2]).symm

/-- Before the call only arguments are evaluated, under their names. -/
lemma isName_of_mem_before (hd : d.Acceptable) {s : Statement} (hs : s ∈ a.before) {e : String}
    (he : s.evaluated? = some e) : Name.IsName e := by
  have hevaluates : s.evaluates e = true := beq_iff_eq.mpr he
  rcases List.mem_cons.mp hs with rfl | hs
  · cases he
  rcases List.mem_append.mp hs with hs | hs
  · have hquiet := (receiverRow a.receiver_eq).onlyOf.1.evaluates_eq_false (by simp) (by simp)
    exact absurd hevaluates (Bool.eq_false_iff.mp (hquiet e s hs))
  · obtain ⟨r, hr, hs⟩ := List.mem_flatMap.mp hs
    obtain ⟨arg, harg, hrow⟩ := a.exists_rebuildRow hr
    rw [hrow.evaluated_of_mem hs he]
    exact (hd.argNames arg harg).1

/-- So nothing is evaluated before the call that could be taken for it. -/
lemma not_evaluates_of_mem_before (hd : d.Acceptable) {s : Statement} (hs : s ∈ a.before) :
    s.evaluates a.call = false := by
  refine Bool.eq_false_iff.mpr fun hevaluates => ?_
  have hname := a.isName_of_mem_before hd hs (eq_of_beq hevaluates)
  exact Descriptor.not_isName_of_invocation a.call_eq hname

lemma evaluates_callStatement : a.callStatement.evaluates a.call = true := by
  rw [callStatement]
  split <;> exact beq_self_eq_true (some a.call)

section Back

variable {back : List Statement}

lemma forall₂_reclaimed_append
    (hback : OnlyOf [.arm, .armBlock, .closeScope, .bind, .storeOut, .line, .release] back) :
    List.Forall₂ Handle.ReclaimedBy d.handles
      ((a.before ++ a.callStatement :: back).filter (·.isOf [.reclaim])) := by
  have hcall : a.callStatement.isOf [.reclaim] = false :=
    a.onlyOf_callStatement.isOf_eq_false (by simp) _ (List.mem_singleton_self _)
  rw [List.filter_append, before, List.filter_cons, List.filter_cons, hcall,
    hback.filter_isOf_eq_nil (by simp), if_neg Bool.false_ne_true, List.append_nil]
  exact a.reclaimed

lemma filter_release_append (hreleases : back.filter (·.isOf [.release]) = a.releases) :
    (a.before ++ a.callStatement :: back).filter (·.isOf [.release]) =
      Handle.releases d.handles := by
  have hcall : a.callStatement.isOf [.release] = false :=
    a.onlyOf_callStatement.isOf_eq_false (by simp) _ (List.mem_singleton_self _)
  rw [List.filter_append, List.filter_cons, hcall,
    a.onlyOf_before.filter_isOf_eq_nil (by simp [stepKinds]), if_neg Bool.false_ne_true,
    List.nil_append, hreleases, releases_eq]

/-- The handles are taken back in the order of the parameters. -/
lemma filterMap_reclaimed_append
    (hback : OnlyOf [.arm, .armBlock, .closeScope, .bind, .storeOut, .line, .release] back) :
    (a.before ++ a.callStatement :: back).filterMap Statement.reclaimed? =
      d.handles.map Handle.name := by
  rw [filterMap_reclaimed]
  refine Listwise.filterMap_eq_map (a.forall₂_reclaimed_append hback) ?_
  rintro h s ⟨text, -, rfl⟩
  rfl

/-- The call is made once. -/
lemma length_filter_evaluates_append (hd : d.Acceptable)
    (hquiet : ∀ s ∈ back, s.evaluates a.call = false) :
    ((a.before ++ a.callStatement :: back).filter (·.evaluates a.call)).length = 1 := by
  have hnone : a.before.filter (·.evaluates a.call) = [] :=
    List.filter_eq_nil_iff.mpr fun s hs => by simp [a.not_evaluates_of_mem_before hd hs]
  have hrest : back.filter (·.evaluates a.call) = [] :=
    List.filter_eq_nil_iff.mpr fun s hs => by simp [hquiet s hs]
  rw [List.filter_append, List.filter_cons, hnone, hrest, if_pos a.evaluates_callStatement]
  rfl

/-- A way out along which the lent handles are handed out behind the call keeps all handles. -/
lemma keepsHandles_append (hd : d.Acceptable)
    (hback : OnlyOf [.arm, .armBlock, .closeScope, .bind, .storeOut, .line, .release] back)
    (hreleases : back.filter (·.isOf [.release]) = a.releases) :
    KeepsHandles d (a.before ++ a.callStatement :: back) := by
  have hnodup := Descriptor.nodup_handles hd
  have hreclaimed := a.forall₂_reclaimed_append hback
  have hreleased := a.filter_release_append hreleases
  have hquiet := hback.evaluates_eq_false (by simp) (by simp) a.call
  have hfront : OnlyOf (.openFunction :: .openMatch :: .call :: stepKinds)
      (a.before ++ [a.callStatement]) :=
    .append (a.onlyOf_before.mono (by simp [stepKinds])) (a.onlyOf_callStatement.mono (by simp))
  have hafter : OnlyOf [.openMatch, .call, .arm, .armBlock, .closeScope, .bind, .storeOut, .line,
      .release] ([a.callStatement] ++ back) :=
    .append (a.onlyOf_callStatement.mono (by simp)) (hback.mono (by simp))
  refine ⟨fun h hh => exists_filter_reclaimed hnodup hreclaimed hh,
    a.filterMap_reclaimed_append hback,
    fun h hh hc => filter_released_of_consumed hnodup hreleased hh hc,
    fun h hh hc => filter_released_of_lent hnodup hreleased hh hc, ?_,
    a.call, a.expressions_eq ▸ a.call_eq, a.length_filter_evaluates_append hd hquiet,
    ⟨a.before, _, rfl, fun s hs => a.not_evaluates_of_mem_before hd hs,
      hafter.isOf_eq_false (by simp)⟩,
    ⟨a.before ++ [a.callStatement], back, by simp, hfront.isOf_eq_false (by simp [stepKinds]),
      hquiet⟩⟩
  rw [filterMap_released]
  refine Listwise.filterMap_eq_map (forall₂_released hreleased) ?_
  rintro h s rfl
  rfl

end Back

end Assembly

/-! ### All ways out -/

namespace Descriptor

variable {d : Descriptor}

/-- Every handle points to a struct. -/
lemma exists_target_of_mem_handles (hd : d.Acceptable) {h : Handle} (hh : h ∈ d.handles) :
    ∃ name params, h.target = .struct name params := by
  rcases List.mem_append.mp hh with hh | hh
  · cases howner : d.owner with
    | none => simp [receiverHandles, howner] at hh
    | some owner =>
        obtain ⟨hstruct, -⟩ := hd.owner owner howner
        cases hmode : d.receiver <;> simp [receiverHandles, howner, hmode] at hh <;> rw [hh]
          <;> exact hstruct
  · obtain ⟨arg, harg, hh⟩ := List.mem_flatMap.mp hh
    obtain ⟨name, t⟩ := arg
    cases (hd.argTypes _ harg).2 with
    | simple hsimple =>
        cases hsimple with
        | primitive s => cases hh
        | struct s ps =>
            rw [List.mem_singleton.mp hh]
            exact ⟨s, ps, rfl⟩
    | sharedRef s ps =>
        rw [List.mem_singleton.mp hh]
        exact ⟨s, ps, rfl⟩
    | mutRef s ps =>
        rw [List.mem_singleton.mp hh]
        exact ⟨s, ps, rfl⟩
    | sequence s => cases hh
    | enum s _ => cases hh

end Descriptor

namespace Assembly

variable {d : Descriptor} (a : Assembly d)

lemma filter_release_releases : a.releases.filter (·.isOf [.release]) = a.releases :=
  List.filter_eq_self.mpr fun s hs => by simpa [Statement.isOf] using a.onlyOf_releases s hs

lemma filter_release_afterwards : a.afterwards.filter (·.isOf [.release]) = a.releases := by
  have hend : OnlyOf [.line, .closeScope] (a.last ++ [.closeScope]) :=
    .append (a.onlyOf_last.mono (by simp)) (.cons (by simp [Statement.kind]) .nil)
  rw [afterwards, ending, List.filter_append, List.filter_append, List.filter_append,
    a.onlyOf_arms.filter_isOf_eq_nil (by simp), a.onlyOf_stores.filter_isOf_eq_nil (by simp),
    hend.filter_isOf_eq_nil (by simp), filter_release_releases, List.nil_append, List.nil_append]
  exact List.append_nil _

/-- On the way to the end the writes through out-pointers come before the handles are out. -/
lemma stores_precede_releases :
    Precede (·.isOf [.storeOut]) (·.isOf [.release]) a.wrapper.success := by
  have hfront : OnlyOf (.openFunction :: .call :: .arm :: .armBlock :: .storeOut :: stepKinds)
      (a.before ++ ([a.callStatement] ++ (a.arms ++ a.stores))) :=
    .append (a.onlyOf_before.mono (by simp [stepKinds]))
      (.append (a.onlyOf_callStatement.mono (by simp [stepKinds]))
        (.append (a.onlyOf_arms.mono (by simp [stepKinds]))
          (a.onlyOf_stores.mono (by simp [stepKinds]))))
  refine ⟨_, a.ending, ?_, hfront.isOf_eq_false (by simp [stepKinds]),
    a.onlyOf_ending.isOf_eq_false (by simp)⟩
  rw [success_eq, afterwards]
  simp only [List.append_assoc, List.cons_append, List.nil_append]

/-- On the way out through the failure the sentinel comes last. -/
lemma releases_precede_return :
    Precede (·.isOf [.release]) (·.isOf [.line])
      (a.before ++ a.callStatement :: a.failure) := by
  have hfront : OnlyOf (.openFunction :: .call :: .release :: stepKinds)
      (a.before ++ ([a.callStatement] ++ a.releases)) :=
    .append (a.onlyOf_before.mono (by simp [stepKinds]))
      (.append (a.onlyOf_callStatement.mono (by simp [stepKinds]))
        (a.onlyOf_releases.mono (by simp [stepKinds])))
  refine ⟨_, [.line "return 1;"], ?_, hfront.isOf_eq_false (by simp [stepKinds]),
    List.forall_mem_singleton.mpr rfl⟩
  rw [failure]
  simp only [List.append_assoc, List.cons_append, List.nil_append]
  rfl

end Assembly

/-- **Ownership discipline.** Whatever the receiver, the arguments and the result, every way out of
a wrapper takes each handle back once before the call, and hands out again, once and behind the
call, exactly the handles that were only lent. -/
theorem keepsAllHandles_of_compile (d : Descriptor) (w : Wrapper) (h : d.compile = .ok w) :
    KeepsAllHandles d w := by
  have hd := Descriptor.acceptable_of_compile h
  obtain ⟨a, rfl⟩ := Descriptor.exists_assembly h
  refine ⟨Descriptor.nodup_handles hd, fun h hh => Descriptor.exists_target_of_mem_handles hd hh,
    ?_, a.stores_precede_releases, a.failures_length, fun path hpath => ?_, fun path hpath => ?_⟩
  · rw [a.success_eq]
    exact a.keepsHandles_append hd a.onlyOf_afterwards a.filter_release_afterwards
  · rw [a.eq_of_mem_failures hpath]
    refine a.keepsHandles_append hd (a.onlyOf_failure.mono (by simp)) ?_
    rw [Assembly.failure, List.filter_append, a.filter_release_releases]
    exact List.append_nil _
  · refine ⟨a.getLast?_of_mem_failures hpath, ?_⟩
    rw [a.eq_of_mem_failures hpath]
    exact a.releases_precede_return

theorem keepsAllHandles_exchange :
    ∃ w, Descriptor.exchange.compile = .ok w ∧ KeepsAllHandles Descriptor.exchange w :=
  ⟨_, rfl, keepsAllHandles_of_compile Descriptor.exchange _ rfl⟩

end AbiBridge
