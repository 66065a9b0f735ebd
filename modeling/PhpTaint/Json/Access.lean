import PhpTaint.Fault
import PhpTaint.Json.Value

/-!
# Asking values for something specific

Values promise nothing, so whoever needs a text, a field or a sequence of parts
has to ask for it. A value that cannot give what it is asked for is a fault, and
the question decides which one.
-/

namespace PhpTaint.Json

/-- A text, for an operation that only texts offer. -/
def requireText : Value -> Except Fault String
  | .text text => .ok text
  | _ => .error .missingOperation

/-- A value that can be the key of a table. -/
def requireScalar : Value -> Except Fault Scalar
  | .scalar value => .ok value
  | _ => .error .illTyped

/-- The fields of a value that is asked for one of them by name. -/
def requireFields : Value -> Except Fault (List (String × Value))
  | .object fields => .ok fields
  | _ => .error .illTyped

/-- The value of a field that has to be there. -/
def requireField (fields : List (String × Value)) (name : String) : Except Fault Value :=
  match Value.fieldOf name fields with
  | some value => .ok value
  | none => .error .missingField

/-- The parts of a value, one after the other: the items of a sequence, the
characters of a text, the field names of a mapping. -/
def requireParts : Value -> Except Fault (List Value)
  | .list items => .ok items
  | .text text => .ok (text.toList.map fun char => .text (String.singleton char))
  | .object fields => .ok (fields.map fun field => .text field.1)
  | .scalar _ => .error .illTyped

/-- The two parts of a value that has to have exactly two. -/
def requirePair (value : Value) : Except Fault (Value × Value) := do
  match ← requireParts value with
  | [first, second] => return (first, second)
  | _ :: _ :: _ => .error .tooManyParts
  | fewer => .error (.tooFewParts fewer.length)

/-- The texts among the parts of a value that has to consist of texts. -/
def requireTexts (value : Value) : Except Fault (List String) := do
  (← requireParts value).mapM fun part =>
    match part with
    | .text text => .ok text
    | _ => .error .illTyped

/-- Whether a number is above zero. -/
def requirePositive : Value -> Except Fault Bool
  | .int number => .ok (decide (0 < number))
  | .bool value => .ok value
  | .scalar (.decimal (.finite negative magnitude _)) => .ok (!negative && magnitude != 0)
  | .scalar (.decimal (.infinite negative)) => .ok (!negative)
  | .scalar (.decimal .undefined) => .ok false
  | _ => .error .illTyped

end PhpTaint.Json
