import AbiBridge.Boundary.Parser
import AbiBridge.Files.Tree
import AbiBridge.Schema
import AbiBridge.Source.Emitter
import AbiBridge.Toml.Fault
import AbiBridge.Toml.Inline
import AbiBridge.Value.Entries
import AbiBridge.Wrapper.Validation

/-!
Why an operation failed.

A `Failure` is one of the faults of the parts of the program, or one of the faults that arise
where they meet: in the registration of functions and crates, in the reading of settings and
manifests, and in the run of the formatter. `Failure.kind` sorts failures by what a caller can do
about them, and `Failure.message` is their wording; what the reader of a document would say about
it is left out.
-/

namespace AbiBridge

/-- A fault in the registration of functions and crates. -/
inductive RegistrationFault where
  /-- Something other than a struct, or nothing, was to be a handle. -/
  | handleNotStruct (t : Option BoundaryType)
  /-- A symbol was exported before. -/
  | symbolTaken (symbol origin previous : String)
  /-- A crate came without options. -/
  | crateWithoutOptions (crate : String)
  /-- An option of a crate cannot be written. -/
  | unrenderable (fault : Toml.InlineFault)
  /-- The crate was to be written while a scope was open. -/
  | scopeOpen
  /-- A text that has to be a struct's is another type's; what it stands for, and the text. -/
  | structExpected (role text : String)
  /-- A function has a receiver and no owner. -/
  | receiverWithoutOwner (func : String)
  deriving Repr

namespace RegistrationFault

/-- The wording of a fault. -/
def message : RegistrationFault → String
  | handleNotStruct t =>
      let shown := BoundaryType.describe? t
      s!"Opaque struct must be a Struct, got {shown}"
  | symbolTaken symbol origin previous =>
      s!"Exported symbol '{symbol}' for '{origin}' already used by '{previous}'; " ++
        "pass an extern_name"
  | crateWithoutOptions crate =>
      s!"Crate '{crate}' needs at least one option (version, path, git, ...)"
  | unrenderable fault => fault.message
  | scopeOpen => "Cannot flush while a wrapper scope is still open"
  | structExpected role text => s!"{role} '{text}' must be a struct type"
  | receiverWithoutOwner func => s!"Function '{func}' takes a receiver but declares no owner"

end RegistrationFault

/-- What a caller can tell failures apart by. -/
inductive FailureKind where
  /-- The data is wrong. -/
  | malformed
  /-- The data is of a type that has no place there. -/
  | wrongType
  /-- The data has no such parts. -/
  | wrongShape
  /-- A record does not have the fields it should. -/
  | invalidRecord
  /-- A document cannot be read. -/
  | invalidDocument
  /-- The bytes of a document are no text. -/
  | invalidText
  /-- An operation on files failed. -/
  | files (problem : FileProblem)
  /-- The formatter refused the files. -/
  | formatter
  deriving DecidableEq, Repr

/-- Why an operation failed. -/
inductive Failure where
  | typeText (fault : TypeTextFault)
  | type (fault : TypeFault)
  | descriptor (fault : DescriptorFault)
  | scope (fault : ScopeFault)
  | registration (fault : RegistrationFault)
  | file (fault : FileFault)
  /-- A record of the settings or a manifest passed as data. -/
  | record (report : Report)
  /-- The document of the settings cannot be read. -/
  | settingsDocument (fault : Toml.Fault)
  /-- The place where the settings should be is of another shape. -/
  | settingsShape (fault : ShapeFault)
  /-- The bytes of a document are no text. -/
  | encoding
  /-- The document of a manifest cannot be read. -/
  | manifestDocument (path : String) (fault : Toml.Fault)
  /-- The manifest of a document does not have the fields it should. -/
  | manifestRecord (path : String) (report : Report)
  /-- A directory for the crate was asked for and not named. -/
  | destinationUnnamed
  /-- The formatter ended with an exit code other than zero, and wrote this. -/
  | formatter (code : Int) (output : String)

/-- What stands in front of the report on a manifest. -/
def manifestRecordHeading (path : String) : String := s!"Invalid manifest '{path}': "

namespace Failure

/-- The kind of a failure. -/
def kind : Failure → FailureKind
  | typeText _ | scope _ | registration _ | manifestDocument .. | manifestRecord .. => .malformed
  | type .unknownType | descriptor (.illegalType .unknownType) => .wrongType
  | type _ | descriptor _ => .malformed
  | file ⟨.nullCharacter, _⟩ => .malformed
  | file fault => .files fault.problem
  | record _ => .invalidRecord
  | settingsDocument (.integer _) => .malformed
  | settingsDocument _ => .invalidDocument
  | settingsShape (.noFields _) | destinationUnnamed => .wrongShape
  | settingsShape (.itemOfLength ..) => .malformed
  | settingsShape _ => .wrongType
  | encoding => .invalidText
  | formatter .. => .formatter

/-- The wording of a failure. -/
def message : Failure → String
  | typeText fault => fault.message
  | type fault => fault.message
  | descriptor fault => fault.message
  | scope fault => fault.message
  | registration fault => fault.message
  | file fault => fault.message
  | record report => report.message
  | settingsDocument (.integer fault) | manifestDocument _ (.integer fault) => fault.message
  | settingsDocument _ | encoding => ""
  | settingsShape fault => fault.message
  | manifestDocument path _ => s!"Invalid TOML in '{path}'"
  | manifestRecord path report => manifestRecordHeading path ++ report.message
  | destinationUnnamed => "No directory is named for the crate"
  | formatter .. => ""

end Failure

namespace FailureKind

/-- Whether the fault is in the data: in its values, its fields or its text. -/
def isData : FailureKind → Bool
  | malformed | invalidRecord | invalidDocument | invalidText => true
  | wrongType | wrongShape | files _ | formatter => false

/-- Whether the fault is in the files. -/
def isFiles : FailureKind → Bool
  | files _ => true
  | _ => false

end FailureKind

end AbiBridge
