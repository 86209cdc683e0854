import AbiBridge.Crate.Basic

/-!
The exported symbols of a crate, as a table.

There is a row for every exported function, in the order of registration, with its parameters and
its result; texts that come from a manifest are escaped.
-/

namespace AbiBridge

open Text

/-- A table of texts. -/
structure Listing where
  title : String
  headers : List String
  rows : List (List String)
  deriving DecidableEq, Repr

namespace Listing

/-- The row of an exported function. -/
def row (g : Signature) : List String :=
  let params := ", ".intercalate (g.params.map Parameter.render)
  [g.name, if params = "" then "-" else escapeMarkup params, escapeMarkup (g.result.getD "()")]

/-- The table of a crate. -/
def ofCrate (c : Crate) : Listing :=
  { title := String.join ["Exported symbols: ", escapeMarkup c.name]
    headers := ["Symbol", "Parameters", "Returns"]
    rows := c.signatures.map row }

theorem length_rows_ofCrate (c : Crate) : (ofCrate c).rows.length = c.signatures.length :=
  List.length_map _

end Listing

end AbiBridge
