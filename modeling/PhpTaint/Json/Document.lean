import PhpTaint.Json.Access
import PhpTaint.Table

/-!
# Data files

The content of a data file is a value, except that the mapping at its top may
have keys that are no texts. Keys that denote the same number are one key: the
first spelling and the first place stay, and the last value does.
-/

namespace PhpTaint.Json

/-- The content of a data file. -/
inductive Document where
  /-- A mapping, in file order. -/
  | mapping (entries : List (Scalar × Value))
  /-- Anything else. -/
  | other (value : Value)
  deriving Repr, Inhabited

namespace Document

/-- The content of a file that holds nothing. -/
def empty : Document := .other .null

instance : EmptyCollection Document := ⟨empty⟩

/-- The content of a file that is given as one value. -/
def ofValue : Value -> Document
  | .object fields => .mapping (fields.map fun field => (.text field.1, field.2))
  | value => .other value

/-- Write an entry under its key. -/
def addEntry (table : Table Scalar (Scalar × Value)) (key : Scalar) (value : Value) :
    Table Scalar (Scalar × Value) :=
  let spelled := ((table.find? key.normal).map Prod.fst).getD key
  table.insert key.normal (spelled, value)

/-- The content of a file that is given as pairs of a key and a value. -/
def ofPairs (pairs : List Value) : Except Fault Document := do
  let table ← pairs.foldlM
    (fun table pair => do
      let (key, value) ← requirePair pair
      return addEntry table (← requireScalar key) value)
    ∅
  return .mapping table.values

/-- The entries of a content that has to be a mapping; a content that counts as
absent has none. -/
def entries : Document -> Except Fault (List (Scalar × Value))
  | .mapping entries => .ok entries
  | .other value => if value.isPresent then .error .missingOperation else .ok []

end Document

end PhpTaint.Json
