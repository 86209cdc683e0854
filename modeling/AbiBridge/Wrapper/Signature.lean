import AbiBridge.Boundary.Encoding

/-!
Signatures of wrappers.

A wrapper's parameters are the opaque receiver, the arguments with the lengths beside them, and
the out-pointers for the result. A `Signature` is what stands in front of a function's body; the
function returns the sentinel of a fallible call, or its own result, or nothing.
-/

namespace AbiBridge

/-- The name of the receiver's parameter. -/
def receiverName : String := "self_"

/-- The name of the out-pointer for the result. -/
def resultName : String := "return_ptr"

/-- The name of the out-pointer for the length of the result. -/
def resultLengthName : String := "return_len"

/-- What a named parameter is for. -/
inductive ParameterRole where
  /-- It carries an argument. -/
  | argument
  /-- It carries the length of the argument before it. -/
  | length
  /-- It points to the place of the result. -/
  | result
  /-- It points to the place of the result's length. -/
  | resultLength
  deriving DecidableEq, Repr

namespace ParameterRole

/-- Whether the parameter points to a place that is written. -/
def isOut : ParameterRole → Bool
  | argument | length => false
  | result | resultLength => true

end ParameterRole

/-- A parameter of a wrapper. -/
inductive Parameter where
  /-- The opaque pointer to the receiver. -/
  | receiver
  /-- A parameter with its name and its scalar; of an out-pointer, the scalar pointed to. -/
  | named (name scalar : String) (role : ParameterRole)
  deriving DecidableEq, Repr

namespace Parameter

/-- The name of a parameter. -/
def name : Parameter → String
  | receiver => receiverName
  | named name _ _ => name

/-- The type of a parameter as the signature shows it. -/
def typeText : Parameter → String
  | receiver => opaquePointer
  | named _ scalar role => if role.isOut then "*mut " ++ scalar else scalar

/-- A parameter as the signature shows it. -/
def render (p : Parameter) : String := p.name ++ ": " ++ p.typeText

/-- The length that goes with the argument of the given name. -/
def lengthOf (name : String) : Parameter := named (name ++ "_len") lengthType .length

end Parameter

/-- What a function with the result protocol returns. -/
def sentinelType : String := "u32"

/-- The sentinel of success. -/
def successSentinel : String := "0"

/-- The sentinel of failure. -/
def failureSentinel : String := "1"

/-- What stands in front of a function's body. -/
structure Signature where
  /-- The name of the function. -/
  name : String
  /-- Whether the function is exported under its plain name. -/
  exported : Bool := false
  /-- The parameters in order. -/
  params : List Parameter := []
  /-- The native result, which does not count if the function is fallible. -/
  returns : Option String := none
  /-- Whether the function ends with the sentinel of success. -/
  fallible : Bool := false
  deriving DecidableEq, Repr

namespace Signature

/-- The type that the function returns. -/
def result (s : Signature) : Option String := if s.fallible then some sentinelType else s.returns

/-- The arrow in front of a result; an empty text counts as none. -/
def arrow : Option String → String
  | none => ""
  | some result => if result = "" then "" else " -> " ++ result

/-- The parameters, separated by commas. -/
def paramsText (s : Signature) : String := ", ".intercalate (s.params.map Parameter.render)

/-- The lines that open the function. -/
def header (s : Signature) : List String :=
  let rest := s.name ++ "(" ++ s.paramsText ++ ")" ++ arrow s.result ++ " \x7b"
  if s.exported then ["#[no_mangle]", "pub extern \"C\" fn " ++ rest] else ["fn " ++ rest]

end Signature

end AbiBridge
