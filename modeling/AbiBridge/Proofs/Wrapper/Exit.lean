import AbiBridge.Proofs.Listwise
import AbiBridge.Proofs.Wrapper.Acceptance
import AbiBridge.Proofs.Wrapper.Handle
import Mathlib.Data.List.Basic

/-!
Ways out of a wrapper.

A wrapper is left at its end, or through a block among the arms of a match. `Wrapper.success` and
`Wrapper.failures` read these ways off the plan, each as the list of the statements that are passed
on it. The kinds of statements, and what a statement takes back, hands out, stores and evaluates,
are observed on such a list.

* `Precede`: all statements of one sort come before all those of another;
* `Assembly.success_eq`, `Assembly.failures_eq`: both ways have the same statements up to the
  call, and a wrapper is left early only if it is fallible.
-/

namespace AbiBridge

/-! ### Observations -/

/-- What a statement is. -/
inductive StatementKind where
  | openFunction
  | openMatch
  | closeScope
  | arm
  | armBlock
  | bind
  | storeOut
  | line
  | call
  | reclaim
  | release
  deriving DecidableEq, Repr

namespace Statement

def kind : Statement → StatementKind
  | openFunction .. => .openFunction
  | openMatch .. => .openMatch
  | closeScope => .closeScope
  | arm .. => .arm
  | armBlock .. => .armBlock
  | bind .. => .bind
  | storeOut .. => .storeOut
  | line .. => .line
  | call .. => .call
  | reclaim .. => .reclaim
  | release .. => .release

/-- Whether a statement is of one of the given kinds. -/
def isOf (kinds : List StatementKind) (s : Statement) : Bool := kinds.contains s.kind

/-- The name of the handle that a statement takes back. -/
def reclaimed? : Statement → Option String
  | reclaim name .. => some name
  | _ => none

/-- The name of the handle that a statement hands out again. -/
def released? : Statement → Option String
  | release name => some name
  | _ => none

/-- The out-pointer that a statement writes through, and the expression that it writes. -/
def stored? : Statement → Option (String × String)
  | storeOut pointer value => some (pointer, value)
  | _ => none

/-- The expression whose value a statement is about: that of a call or of a match. -/
def evaluated? : Statement → Option String
  | call expression _ => some expression
  | openMatch scrutinee .. => some scrutinee
  | _ => none

/-- Whether a statement evaluates an expression. -/
def evaluates (expression : String) (s : Statement) : Bool := s.evaluated? == some expression

end Statement

/-- Every statement with `p` comes before every one with `q`. -/
def Precede (p q : Statement → Bool) (path : List Statement) : Prop :=
  ∃ front back, path = front ++ back ∧ (∀ s ∈ front, q s = false) ∧ ∀ s ∈ back, p s = false

/-! ### Ways out -/

/-- The ways out through the blocks of arms, where `seen` holds the statements before, the nearest
first. The other arms of the match are passed by. -/
def blockExits (seen : List Statement) : List Statement → List (List Statement)
  | [] => []
  | .armBlock body :: rest =>
      ((seen.dropWhile (·.isOf [.arm, .armBlock])).reverse ++ body) ::
        blockExits (.armBlock body :: seen) rest
  | s :: rest => blockExits (s :: seen) rest

lemma blockExits_append {front : List Statement} (seen rest : List Statement)
    (h : ∀ s ∈ front, s.kind ≠ .armBlock) :
    blockExits seen (front ++ rest) = blockExits (front.reverse ++ seen) rest := by
  induction front generalizing seen with
  | nil => rfl
  | cons s front ih =>
      obtain ⟨hs, hfront⟩ := List.forall_mem_cons.mp h
      have hstep : blockExits seen (s :: (front ++ rest)) =
          blockExits (s :: seen) (front ++ rest) := by
        cases s with
        | armBlock body => exact absurd rfl hs
        | _ => rfl
      rw [List.cons_append, hstep, ih (s :: seen) hfront, List.reverse_cons, List.append_assoc]
      rfl

lemma blockExits_eq_nil {l : List Statement} (seen : List Statement)
    (h : ∀ s ∈ l, s.kind ≠ .armBlock) : blockExits seen l = [] := by
  rw [← List.append_nil l, blockExits_append seen [] h]
  rfl

namespace Wrapper

/-- The statements on the way to the end of a wrapper. -/
def success (w : Wrapper) : List Statement := w.plan

/-- The statements on each way out through a block. -/
def failures (w : Wrapper) : List (List Statement) := blockExits [] w.plan

end Wrapper

/-! ### What the pieces of a wrapper are made of -/

/-- Statements of the given kinds. -/
def OnlyOf (kinds : List StatementKind) (l : List Statement) : Prop := ∀ s ∈ l, s.kind ∈ kinds

namespace OnlyOf

variable {kinds more : List StatementKind} {l l' : List Statement}

lemma nil : OnlyOf kinds [] := fun _ h => absurd h List.not_mem_nil

lemma cons {s : Statement} (hs : s.kind ∈ kinds) (hl : OnlyOf kinds l) : OnlyOf kinds (s :: l) :=
  List.forall_mem_cons.mpr ⟨hs, hl⟩

lemma append (hl : OnlyOf kinds l) (hl' : OnlyOf kinds l') : OnlyOf kinds (l ++ l') :=
  List.forall_mem_append.mpr ⟨hl, hl'⟩

lemma mono (hl : OnlyOf kinds l) (h : kinds ⊆ more) : OnlyOf more l := fun s hs => h (hl s hs)

lemma flatMap {α : Type} {f : α → List Statement} {xs : List α}
    (h : ∀ x ∈ xs, OnlyOf kinds (f x)) : OnlyOf kinds (xs.flatMap f) := by
  intro s hs
  obtain ⟨x, hx, hsx⟩ := List.mem_flatMap.mp hs
  exact h x hx s hsx

lemma map {α : Type} {f : α → Statement} {xs : List α} (h : ∀ x, (f x).kind ∈ kinds) :
    OnlyOf kinds (xs.map f) := by
  intro s hs
  obtain ⟨x, -, rfl⟩ := List.mem_map.mp hs
  exact h x

/-- No statement of a kind that is left out. -/
lemma ne (hl : OnlyOf kinds l) {kind : StatementKind} (hkind : kind ∉ kinds) :
    ∀ s ∈ l, s.kind ≠ kind := fun s hs h => hkind (h ▸ hl s hs)

/-- Statements of kinds that are not looked for. -/
lemma isOf_eq_false (hl : OnlyOf kinds l) {other : List StatementKind}
    (h : ∀ kind ∈ kinds, kind ∉ other) : ∀ s ∈ l, s.isOf other = false := by
  intro s hs
  rw [Statement.isOf, Bool.eq_false_iff, Ne, List.contains_iff_mem]
  exact h s.kind (hl s hs)

lemma filter_isOf_eq_nil (hl : OnlyOf kinds l) {other : List StatementKind}
    (h : ∀ kind ∈ kinds, kind ∉ other) : l.filter (·.isOf other) = [] :=
  List.filter_eq_nil_iff.mpr fun s hs => by simp [hl.isOf_eq_false h s hs]

/-- Only calls and matches evaluate anything. -/
lemma evaluates_eq_false (hl : OnlyOf kinds l) (hcall : .call ∉ kinds) (hmatch : .openMatch ∉ kinds)
    (e : String) : ∀ s ∈ l, s.evaluates e = false := by
  intro s hs
  cases s with
  | call expression binding => exact absurd rfl (hl.ne hcall _ hs)
  | openMatch scrutinee patterns binding => exact absurd rfl (hl.ne hmatch _ hs)
  | _ => rfl

end OnlyOf

/-- The arms that an ordinal is matched with. -/
lemma onlyOf_enumArms (enumName : String) (variants : List String) :
    OnlyOf [.arm, .closeScope] (variants.map (fun v => .arm (enumName ++ "::" ++ v)) ++
      [.arm "std::process::abort()", .closeScope]) := by
  refine .append (.map fun v => by simp [Statement.kind]) ?_
  exact .cons (by simp [Statement.kind]) (.cons (by simp [Statement.kind]) .nil)

lemma onlyOf_decodeEnum (name enumName : String) (variants : List String) :
    OnlyOf [.openMatch, .arm, .closeScope] (decodeEnum name enumName variants) :=
  .cons (by simp [Statement.kind]) ((onlyOf_enumArms enumName variants).mono (by simp))

/-- The kinds of the statements that rebuild a value. -/
def stepKinds : List StatementKind := [.reclaim, .bind, .openMatch, .arm, .closeScope]

lemma onlyOf_handle_releases (l : List Handle) : OnlyOf [.release] (Handle.releases l) :=
  .map fun _ => List.mem_singleton_self _

/-- An argument on its way to the call: what rebuilds it and what hands it back. -/
lemma RebuildRow.onlyOf {name : String} {t : BoundaryType} {r : Rebuilt}
    (h : RebuildRow name t r) : OnlyOf stepKinds r.steps ∧ OnlyOf [.release] r.releases := by
  cases h with
  | scalar s => exact ⟨.nil, .nil⟩
  | handle h text hhandles hname htext =>
      exact ⟨.cons (by simp [Statement.kind, stepKinds]) .nil, onlyOf_handle_releases _⟩
  | run elem text htext => exact ⟨.cons (by simp [Statement.kind, stepKinds]) .nil, .nil⟩
  | ordinal s vs => exact ⟨(onlyOf_decodeEnum name s vs).mono (by simp [stepKinds]), .nil⟩

lemma ReceiverRow.onlyOf {d : Descriptor} {r : Rebuilt} (h : ReceiverRow d r) :
    OnlyOf [.reclaim] r.steps ∧ OnlyOf [.release] r.releases := by
  cases h with
  | none hhandles => exact ⟨.nil, .nil⟩
  | handle h text hhandles hname htext =>
      exact ⟨.cons (by simp [Statement.kind]) .nil, onlyOf_handle_releases _⟩

lemma onlyOf_storeResult {fallible : Bool} {ret : Option BoundaryType} {stores : List Statement}
    (h : Descriptor.storeResult fallible ret = .ok stores) : OnlyOf [.bind, .storeOut] stores := by
  have store : ∀ pointer value, OnlyOf [.bind, .storeOut] [.storeOut pointer value] :=
    fun _ _ => .cons (by simp [Statement.kind]) .nil
  cases ret with
  | none =>
      cases h
      exact .nil
  | some t =>
      cases t with
      | primitive s => cases fallible <;> cases h <;> first | exact .nil | exact store _ _
      | struct s ps =>
          cases h
          exact store _ _
      | sharedRef inner =>
          obtain ⟨text, -, hr⟩ := Outcome.bind_eq_ok.mp h
          cases hr
          exact store _ _
      | mutRef inner =>
          obtain ⟨text, -, hr⟩ := Outcome.bind_eq_ok.mp h
          cases hr
          exact store _ _
      | sequence elem =>
          cases h
          refine .cons (by simp [Statement.kind]) (.cons (by simp [Statement.kind]) (store _ _))
      | enum s vs => cases h
      | unknown => cases h

/-! ### The ways out of an assembly -/

namespace Assembly

variable {d : Descriptor} (a : Assembly d)

/-- Every argument on its way to the call is one of the rows. -/
lemma exists_rebuildRow {r : Rebuilt} (hr : r ∈ a.args) :
    ∃ arg ∈ d.args, RebuildRow arg.1 arg.2 r := by
  obtain ⟨arg, harg, hrebuild⟩ := Listwise.exists_of_mem_right a.args_eq hr
  exact ⟨arg, harg, rebuildRow hrebuild⟩

/-- What comes before the call. -/
def before : List Statement := .openFunction a.signature :: a.steps

/-- The statement that makes the call. -/
def callStatement : Statement :=
  if d.fallible then
    .openMatch a.call [if d.ret.isSome then "Ok(" ++ valueName ++ ")" else "Ok(_)", "Err(_)"]
      a.binding
  else .call a.call a.binding

/-- What is done when the call failed. -/
def failure : List Statement := a.releases ++ [.line ("return " ++ failureSentinel ++ ";")]

/-- The arms of the match over the call. -/
def arms : List Statement :=
  if d.fallible then
    [.arm (if d.ret.isSome then valueName else "\x7b\x7d"), .armBlock a.failure, .closeScope]
  else []

/-- What comes behind the writes through the out-pointers. -/
def ending : List Statement := a.releases ++ (a.last ++ [.closeScope])

/-- What comes behind the call on the way to the end. -/
def afterwards : List Statement := a.arms ++ (a.stores ++ a.ending)

lemma onlyOf_steps : OnlyOf stepKinds a.steps := by
  refine .append ((receiverRow a.receiver_eq).onlyOf.1.mono (by simp [stepKinds])) ?_
  refine .flatMap fun r hr => ?_
  obtain ⟨arg, -, hrow⟩ := a.exists_rebuildRow hr
  exact hrow.onlyOf.1

lemma onlyOf_releases : OnlyOf [.release] a.releases := by
  refine .append (receiverRow a.receiver_eq).onlyOf.2 (.flatMap fun r hr => ?_)
  obtain ⟨arg, -, hrow⟩ := a.exists_rebuildRow hr
  exact hrow.onlyOf.2

lemma onlyOf_stores : OnlyOf [.bind, .storeOut] a.stores := onlyOf_storeResult a.stores_eq

lemma onlyOf_last : OnlyOf [.line] a.last := by
  rw [last]
  split
  · exact .cons (by simp [Statement.kind]) .nil
  · exact .nil

lemma onlyOf_arms : OnlyOf [.arm, .armBlock, .closeScope] a.arms := by
  rw [arms]
  split
  · exact .cons (by simp [Statement.kind]) (.cons (by simp [Statement.kind])
      (.cons (by simp [Statement.kind]) .nil))
  · exact .nil

lemma onlyOf_before : OnlyOf (.openFunction :: stepKinds) a.before :=
  .cons List.mem_cons_self (a.onlyOf_steps.mono (List.subset_cons_self _ _))

lemma onlyOf_failure : OnlyOf [.release, .line] a.failure :=
  .append (a.onlyOf_releases.mono (by simp)) (.cons (by simp [Statement.kind]) .nil)

lemma onlyOf_ending : OnlyOf [.release, .line, .closeScope] a.ending :=
  .append (a.onlyOf_releases.mono (by simp)) (.append (a.onlyOf_last.mono (by simp))
    (.cons (by simp [Statement.kind]) .nil))

lemma onlyOf_afterwards :
    OnlyOf [.arm, .armBlock, .closeScope, .bind, .storeOut, .line, .release] a.afterwards :=
  .append (a.onlyOf_arms.mono (by simp)) (.append (a.onlyOf_stores.mono (by simp))
    (a.onlyOf_ending.mono (by simp)))

lemma onlyOf_callStatement : OnlyOf [.openMatch, .call] [a.callStatement] := by
  rw [callStatement]
  split <;> exact .cons (by simp [Statement.kind]) .nil

lemma called_eq : a.called = a.callStatement :: a.arms := by
  rw [called, callStatement, arms]
  split <;> rfl

/-- The way to the end: what comes before the call, the call, and the rest. -/
theorem success_eq : a.wrapper.success = a.before ++ a.callStatement :: a.afterwards := by
  have hbody : a.wrapper.body ++ [.closeScope] = a.steps ++ a.callStatement :: a.afterwards := by
    simp only [wrapper, called_eq, afterwards, ending, List.append_assoc, List.cons_append]
  exact congrArg (Statement.openFunction a.signature :: ·) hbody

/-- A fallible wrapper is left early in one way, behind the call; any other wrapper is not. -/
theorem failures_eq : a.wrapper.failures =
    if d.fallible then [a.before ++ a.callStatement :: a.failure] else [] := by
  have hbefore : ∀ s ∈ a.before, s.kind ≠ .armBlock :=
    a.onlyOf_before.ne (by simp [stepKinds])
  have hrest : ∀ s ∈ a.stores ++ a.ending, s.kind ≠ .armBlock := by
    have honly : OnlyOf [.bind, .storeOut, .release, .line, .closeScope] (a.stores ++ a.ending) :=
      .append (a.onlyOf_stores.mono (by simp)) (a.onlyOf_ending.mono (by simp))
    exact honly.ne (by simp)
  have hsuccess : a.wrapper.plan = a.before ++ a.callStatement :: a.afterwards := a.success_eq
  rw [Wrapper.failures, hsuccess, blockExits_append [] _ hbefore, afterwards, arms, callStatement]
  split
  · rw [List.append_nil, List.cons_append, List.cons_append, List.cons_append, List.nil_append,
      blockExits, blockExits, blockExits, blockExits, blockExits_eq_nil _ hrest]
    all_goals simp [Statement.isOf, Statement.kind]
  · rw [List.nil_append, blockExits]
    · exact blockExits_eq_nil _ hrest
    · exact fun _ h => (nomatch h)

lemma failures_length : a.wrapper.failures.length = if d.fallible then 1 else 0 := by
  rw [a.failures_eq]
  split <;> rfl

lemma eq_of_mem_failures {path : List Statement} (h : path ∈ a.wrapper.failures) :
    path = a.before ++ a.callStatement :: a.failure := by
  rw [failures_eq] at h
  split at h
  · exact List.mem_singleton.mp h
  · exact absurd h List.not_mem_nil

lemma getLast?_of_mem_failures {path : List Statement} (h : path ∈ a.wrapper.failures) :
    path.getLast? = some (.line "return 1;") := by
  rw [a.eq_of_mem_failures h, failure, List.getLast?_append, List.getLast?_cons,
    List.getLast?_append]
  rfl

end Assembly

/-- A fallible method that takes an argument of every kind. -/
def Descriptor.exchange : Descriptor where
  funcName := "exchange"
  owner := some (.struct "net::Link" [])
  receiver := .refMut
  args := [("frame", .struct "Frame" []), ("source", .sharedRef (.struct "Pool" [.primitive "u8"])),
    ("sink", .mutRef (.struct "Pool" [])), ("data", .sequence (.primitive "u8")),
    ("mode", .enum "Mode" ["Fast", "Slow"])]
  ret := some (.sequence (.struct "Frame" []))
  fallible := true

end AbiBridge
