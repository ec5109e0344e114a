/-!
# TOML values

A document is a table: names with values, each name once.  Numbers that are not
integers and points in time are kept as they are written.
-/

namespace DroppedResult

namespace Toml

inductive Value where
  | string (text : String)
  | integer (number : Int)
  | float (text : String)
  | boolean (truth : Bool)
  | dateTime (text : String)
  | array (items : List Value)
  | table (entries : List (String × Value))

/-- The entries of a table. -/
abbrev Table := List (String × Value)

namespace Table

def get? (t : Table) (name : String) : Option Value :=
  t.lookup name

end Table

end Toml

end DroppedResult
