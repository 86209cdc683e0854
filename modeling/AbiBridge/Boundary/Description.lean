import AbiBridge.Boundary.Basic
import AbiBridge.Text.Quoted

/-!
Descriptions of types, as messages show them: the constructor with its named fields, lists in
parentheses with a comma behind a lone element.
-/

namespace AbiBridge

open Text

namespace BoundaryType

mutual

/-- The description of a type. -/
def describe : BoundaryType → String
  | primitive name => String.join ["Primitive(name=", quoted name, ")"]
  | struct name params =>
      String.join ["Struct(name=", quoted name, ", params=", tupleText (describeAll params), ")"]
  | sharedRef inner => String.join ["SharedRef(inner=", describe inner, ")"]
  | mutRef inner => String.join ["MutRef(inner=", describe inner, ")"]
  | sequence elem => String.join ["Sequence(elem=", describe elem, ")"]
  | enum name variants =>
      String.join
        ["Enum(name=", quoted name, ", variants=", tupleText (variants.map quoted), ")"]
  | unknown => "Unknown()"

/-- The descriptions of a list of types. -/
def describeAll : List BoundaryType → List String
  | [] => []
  | t :: ts => describe t :: describeAll ts

end

/-- The description of a type, if there is one. -/
def describe? : Option BoundaryType → String
  | none => "None"
  | some t => describe t

end BoundaryType

end AbiBridge
