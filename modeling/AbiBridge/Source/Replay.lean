import AbiBridge.Source.Emitter
import AbiBridge.Wrapper.Statement

/-!
Writing a plan.

`Statement.emit` writes one statement into an emitter and `Statement.emitAll` a list of them, in
order and up to the first one that fails. Writing a wrapper never fails on the way: its plan
opens and closes its own scopes.
-/

namespace AbiBridge

namespace Statement

mutual

/-- Writes a statement. -/
def emit : Statement → Emission Unit
  | openFunction signature => discard (Emission.openScope (.function signature))
  | openMatch scrutinee patterns binding =>
      discard (Emission.openScope (.arms ⟨scrutinee, patterns, binding, 0, false⟩))
  | closeScope => Emission.closeScope
  | arm body => Emission.arm body
  | armBlock body => do
      Emission.beginArm
      emitAll body
      Emission.endArm
  | bind name value isMutable typeName unchecked =>
      Emission.line (bindingText name value isMutable typeName unchecked)
  | storeOut pointer value => Emission.line (storeText pointer value)
  | line text => Emission.line text
  | call expression binding => Emission.line (callText expression binding false)
  | reclaim name native isMutable consume =>
      Emission.line (reclaimText name native isMutable consume)
  | release name => Emission.line (releaseText name)

/-- Writes the statements of a list in order. -/
def emitAll : List Statement → Emission Unit
  | [] => pure ()
  | s :: ss => do
      emit s
      emitAll ss

end

end Statement

/-- Writes a wrapper. -/
def Wrapper.emit (w : Wrapper) : Emission Unit := Statement.emitAll w.plan

/-- The text of a plan written into an empty emitter. -/
def Statement.sourceOf (plan : List Statement) : Except ScopeFault String :=
  match (emitAll plan).run {} with
  | .ok _ e => .ok e.source
  | .error fault _ => .error fault

end AbiBridge
