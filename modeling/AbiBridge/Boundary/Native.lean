import AbiBridge.Boundary.Basic

/-!
Native text of a type.

`native` is the type as it is written inside a wrapper, generic arguments included;
`expressionPath` is a struct in the place of an expression, where the argument list follows a
double colon.
-/

namespace AbiBridge

namespace BoundaryType

/-- A name followed by its arguments between `opening` and a closing angle bracket, or the name
alone if there are none. -/
def applied (name opening : String) : (arguments : List String) → String
  | [] => name
  | a :: as => name ++ opening ++ ", ".intercalate (a :: as) ++ ">"

mutual

/-- The type as it is written inside a wrapper. -/
def native : BoundaryType → Except TypeFault String
  | primitive name => pure name
  | struct name params => do return applied name "<" (← nativeAll params)
  | sharedRef inner => do return "&" ++ (← native inner)
  | mutRef inner => do return "&mut " ++ (← native inner)
  | sequence elem => do return "Vec<" ++ (← native elem) ++ ">"
  | enum name _ => pure name
  | unknown => throw .unknownType

/-- The native texts of a list of types, in order. -/
def nativeAll : List BoundaryType → Except TypeFault (List String)
  | [] => pure []
  | t :: ts => do
      let text ← native t
      let texts ← nativeAll ts
      return text :: texts

end

/-- A struct in the place of an expression. -/
def expressionPath (name : String) (params : List BoundaryType) : Except TypeFault String := do
  return applied name "::<" (← nativeAll params)

end BoundaryType

end AbiBridge
