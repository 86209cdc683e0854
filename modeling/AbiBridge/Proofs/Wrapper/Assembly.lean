import AbiBridge.Proofs.Outcome
import AbiBridge.Wrapper.Marshalling

/-!
The pieces of a wrapper.

An `Assembly` of a descriptor is what the steps of its compilation gave, with the proofs that they
gave it. `wrapper_eq_ok_iff`: the wrappers of a descriptor are those of its assemblies.
-/

namespace AbiBridge

open Outcome

/-- The pieces that a wrapper is put together from. -/
structure Assembly (d : Descriptor) where
  params : List Parameter
  /-- The receiver on its way to the call. -/
  receiver : Rebuilt
  /-- The arguments on their way to the call, in order. -/
  args : List Rebuilt
  call : String
  /-- The statements that write the result through the out-pointers. -/
  stores : List Statement
  params_eq : d.parameters = .ok params
  receiver_eq : d.rebuildReceiver = .ok receiver
  args_eq : List.Forall₂ (fun a r => a.2.rebuild a.1 = .ok r) d.args args
  call_eq : d.invocation (args.map Rebuilt.expression) = .ok call
  stores_eq : Descriptor.storeResult d.fallible d.ret = .ok stores

namespace Assembly

variable {d : Descriptor} (a : Assembly d)

def signature : Signature := ⟨d.symbol, true, a.params, d.nativeReturn, d.fallible⟩

/-- The statements that rebuild the receiver and the arguments. -/
def steps : List Statement := a.receiver.steps ++ a.args.flatMap Rebuilt.steps

/-- The statements that hand borrowed handles back. -/
def releases : List Statement := a.receiver.releases ++ a.args.flatMap Rebuilt.releases

/-- The name that the value of the call is bound to. -/
def binding (_ : Assembly d) : Option String := if d.ret.isSome then some valueName else none

/-- The statements around the call. -/
def called : List Statement :=
  if d.fallible then Descriptor.dispatch a.call d.ret.isSome a.releases
  else [.call a.call a.binding]

/-- The value as the last line, where the wrapper returns it itself. -/
def last (_ : Assembly d) : List Statement :=
  if d.nativeReturn.isSome then [.line valueName] else []

def wrapper : Wrapper where
  signature := a.signature
  body := a.steps ++ a.called ++ a.stores ++ a.releases ++ a.last

end Assembly

/-- The wrappers of a descriptor are those of its assemblies. -/
theorem Descriptor.wrapper_eq_ok_iff {d : Descriptor} {w : Wrapper} :
    d.wrapper = .ok w ↔ ∃ a : Assembly d, w = a.wrapper := by
  constructor
  · intro h
    obtain ⟨params, hparams, h⟩ := bind_eq_ok.mp h
    obtain ⟨receiver, hreceiver, h⟩ := bind_eq_ok.mp h
    obtain ⟨args, hargs, h⟩ := bind_eq_ok.mp h
    obtain ⟨call, hcall, h⟩ := bind_eq_ok.mp h
    obtain ⟨stores, hstores, h⟩ := bind_eq_ok.mp h
    exact ⟨⟨params, receiver, args, call, stores, hparams, hreceiver, mapM_eq_ok.mp hargs, hcall,
      hstores⟩, (pure_eq_ok.mp h).symm⟩
  · rintro ⟨a, rfl⟩
    have hargs := mapM_eq_ok.mpr a.args_eq
    exact bind_eq_ok.mpr ⟨a.params, a.params_eq, bind_eq_ok.mpr ⟨a.receiver, a.receiver_eq,
      bind_eq_ok.mpr ⟨a.args, hargs, bind_eq_ok.mpr ⟨a.call, a.call_eq,
        bind_eq_ok.mpr ⟨a.stores, a.stores_eq, rfl⟩⟩⟩⟩⟩

end AbiBridge
