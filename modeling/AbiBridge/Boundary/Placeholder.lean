import AbiBridge.Boundary.Basic

/-!
The placeholder for the type a function is defined on.

Inside the types of a method the struct name `Self` without arguments stands for the owner.
`resolveSelf` puts the owner in its place; `mentionsSelf` tells whether a struct of that name,
with arguments or without, is left anywhere.
-/

namespace AbiBridge

/-- The name that stands for the owner. -/
def selfPlaceholder : String := "Self"

namespace BoundaryType

mutual

/-- The type with the owner in the place of every placeholder. -/
def resolveSelf : (t owner : BoundaryType) → Except TypeFault BoundaryType
  | struct name params, owner =>
      if name = selfPlaceholder ∧ params = [] then pure owner
      else do return struct name (← resolveSelfAll params owner)
  | sharedRef inner, owner => do return sharedRef (← resolveSelf inner owner)
  | mutRef inner, owner => do return mutRef (← resolveSelf inner owner)
  | sequence elem, owner => do return sequence (← resolveSelf elem owner)
  | primitive name, _ => pure (primitive name)
  | enum name variants, _ => pure (enum name variants)
  | unknown, _ => throw .unknownType

/-- The types of a list with the owner in the place of every placeholder. -/
def resolveSelfAll : List BoundaryType → (owner : BoundaryType) →
    Except TypeFault (List BoundaryType)
  | [], _ => pure []
  | t :: ts, owner => do
      let t' ← resolveSelf t owner
      let ts' ← resolveSelfAll ts owner
      return t' :: ts'

end

mutual

/-- Whether a struct of the placeholder's name occurs in the type. The answer is given as soon as
one is found, so a type of no known family is a fault only where none was found before it. -/
def mentionsSelf : BoundaryType → Except TypeFault Bool
  | struct name params => if name = selfPlaceholder then pure true else anyMentionsSelf params
  | sharedRef inner | mutRef inner => mentionsSelf inner
  | sequence elem => mentionsSelf elem
  | primitive _ | enum _ _ => pure false
  | unknown => throw .unknownType

/-- Whether one of the types mentions the placeholder. -/
def anyMentionsSelf : List BoundaryType → Except TypeFault Bool
  | [] => pure false
  | t :: ts => do if ← mentionsSelf t then pure true else anyMentionsSelf ts

end

end BoundaryType

end AbiBridge
