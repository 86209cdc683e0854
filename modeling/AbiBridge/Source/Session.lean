import AbiBridge.Failure
import AbiBridge.Source.Replay
import AbiBridge.Wrapper.Marshalling

/-!
Driving an emitter step by step.

A `Session` is an emitter with the guards of the scopes that were opened in it and the files its
text was written to. `Session.perform` carries out one `Operation`; an operation that fails is
answered with the session as it then is. Scopes are only ever opened fresh: a match begins with none
of its arms written and none open, and only the steps on it change that.
-/

namespace AbiBridge

/-- Text for a crate that is linked in. -/
def externCrateText (name : String) : String := String.join ["extern crate ", name, ";"]

/-- Text for a path that is brought into scope. -/
def useText (path : String) : String := String.join ["use ", path, ";"]

/-- An emitter with the guards made so far and the files written. -/
structure Session where
  emitter : Emitter := {}
  guards : List Guard := []
  files : FileTree := {}

/-- A step of a session. -/
inductive Operation where
  /-- Opens a function, with a guard. -/
  | openFunction (signature : Signature)
  /-- Opens a match, with a guard. No arm of it is written yet. -/
  | openMatch (scrutinee : String) (patterns : List String) (binding : Option String)
  /-- Closes the scope of a guard. -/
  | close (guard : Nat)
  /-- Leaves the block of a guard, with or without a failure in it. -/
  | leave (guard : Nat) (failed : Bool)
  /-- Closes the innermost scope. -/
  | closeScope
  | arm (body : String)
  | beginArm
  | endArm
  | line (text : String)
  /-- Writes a statement. -/
  | emit (statement : Statement)
  /-- Writes the wrapper of a descriptor. -/
  | marshal (descriptor : Descriptor)
  /-- Writes the wrapper that drops a handle. -/
  | destructor (owner : Option BoundaryType) (exportName : Option String)
  /-- Gives the text. -/
  | source
  /-- Writes the text to a file, if no scope is open. -/
  | flush (path : Path)

/-- What a step gives. -/
inductive Reply where
  | nothing
  /-- The index of a new guard. -/
  | guard (index : Nat)
  /-- How many statements were written. -/
  | count (n : Nat)
  | text (s : String)
  deriving DecidableEq, Repr

namespace Session

/-- What can be done in a session. -/
abbrev Action := EStateM Failure Session

/-- An operation on the emitter. -/
def emission {α : Type} (x : Emission α) : Action α := fun s =>
  match x s.emitter with
  | .ok a e => .ok a { s with emitter := e }
  | .error fault e => .error (.scope fault) { s with emitter := e }

/-- An operation on the files. -/
def filing {α : Type} (x : Filing α) : Action α := fun s =>
  match x s.files with
  | .ok a t => .ok a { s with files := t }
  | .error fault t => .error (.file fault) { s with files := t }

/-- Keeps a new guard. -/
def keep (guard : Guard) : Action Reply := do
  let s ← get
  set { s with guards := s.guards ++ [guard] }
  return .guard s.guards.length

/-- An operation on a guard that was made before. -/
def withGuard (index : Nat) (x : Guard → Emission Guard) : Action Reply := do
  match (← get).guards[index]? with
  | none => throw (.scope .nothingOpen)
  | some guard =>
      let guard ← emission (x guard)
      modify fun s => { s with guards := s.guards.set index guard }
      return .nothing

/-- Writes a wrapper, if there is one. -/
def emitWrapper (w : Except DescriptorFault Wrapper) : Action Nat :=
  match w with
  | .error fault => throw (.descriptor fault)
  | .ok w => do
      emission w.emit
      return w.plan.length

/-- Writes the text of the emitter to a file, making the directories it is to lie in. -/
def writeTo (path : Path) : Action String := do
  let text ← emission Emission.finish
  filing (Filing.makeDirectories path.parent)
  filing (Filing.write path text)
  return text

/-- One step. -/
def perform : Operation → Action Reply
  | .openFunction signature => do keep (← emission (Emission.openScope (.function signature)))
  | .openMatch scrutinee patterns binding => do
      keep (← emission (Emission.openScope (.arms ⟨scrutinee, patterns, binding, 0, false⟩)))
  | .close index => withGuard index Emission.close
  | .leave index failed => withGuard index (Emission.leave · failed)
  | .closeScope => do emission Emission.closeScope; return .nothing
  | .arm body => do emission (Emission.arm body); return .nothing
  | .beginArm => do emission Emission.beginArm; return .nothing
  | .endArm => do emission Emission.endArm; return .nothing
  | .line text => do emission (Emission.line text); return .nothing
  | .emit statement => do emission statement.emit; return .nothing
  | .marshal descriptor => return .count (← emitWrapper descriptor.compile)
  | .destructor owner exportName => do
      let _ ← emitWrapper (compileDestructor owner exportName)
      return .nothing
  | .source => do return .text (← get).emitter.source
  | .flush path => return .text (← writeTo path)

end Session

end AbiBridge
