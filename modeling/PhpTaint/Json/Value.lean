/-!
# Data values

Rule files and reports are data without a schema that the files themselves
promise to follow, so their content is kept as `Value` until a rule of this
library asks for something more specific. Scalars are a type of their own
because only a scalar can name an entry of a rule table.

Fractional numbers are decimals: a sign, a magnitude and a count of decimal
places. No arithmetic is performed on them, they are compared and written. The
values that no decimal denotes are values of the files, too.
-/

namespace PhpTaint.Json

/-- A number that was not written as a whole number. -/
inductive Decimal where
  /-- The number `magnitude / 10 ^ places` with a sign; zero has one as well. -/
  | finite (negative : Bool) (magnitude places : Nat)
  /-- A number beyond all finite ones. -/
  | infinite (negative : Bool)
  /-- No number. -/
  | undefined
  deriving Repr, DecidableEq, Inhabited

/-- A value without parts. -/
inductive Scalar where
  /-- The absent value. -/
  | null
  /-- A truth value. -/
  | bool (value : Bool)
  /-- A whole number written without point and exponent. -/
  | int (value : Int)
  /-- A number written in any other way. -/
  | decimal (value : Decimal)
  /-- A text. -/
  | text (value : String)
  deriving Repr, DecidableEq, Inhabited

/-- A magnitude with as few decimal places as it needs. -/
def reducePlaces (magnitude : Nat) : Nat -> Nat × Nat
  | 0 => (magnitude, 0)
  | places + 1 =>
      if magnitude % 10 = 0 then reducePlaces (magnitude / 10) places else (magnitude, places + 1)

/-- An integer given by sign and magnitude. -/
def signed (negative : Bool) (magnitude : Nat) : Int :=
  if negative then -Int.ofNat magnitude else Int.ofNat magnitude

/-- The number of binary digits that a decimal is held with. -/
def decimalPrecision : Nat := 53

/-- The whole number that a decimal without places is held as: the nearest one
with few enough binary digits before its final zeros, the even one of two. -/
def heldWhole (magnitude : Nat) : Nat :=
  let unit := Nat.pow 2 (magnitude.log2 + 1 - decimalPrecision)
  let digits := magnitude / unit
  let excess := 2 * (magnitude % unit)
  if excess < unit || (excess = unit && digits % 2 = 0) then digits * unit else (digits + 1) * unit

/-- The scalar that stands for all scalars equal to this one: a truth value is
equal to zero or one, and a decimal without places to a whole number. -/
def Scalar.normal : Scalar -> Scalar
  | .bool value => .int (if value then 1 else 0)
  | .decimal (.finite negative magnitude places) =>
      match reducePlaces magnitude places with
      | (whole, 0) => .int (signed negative (heldWhole whole))
      | (reduced, rest) => .decimal (.finite negative reduced rest)
  | other => other

/-- Whether a scalar is equal to itself: a number that is undefined is only
itself, and equal to nothing that was written elsewhere. -/
def Scalar.isDefined : Scalar -> Bool
  | .decimal .undefined => false
  | _ => true

/-- A value of the rule and report files. -/
inductive Value where
  /-- A value without parts. -/
  | scalar (value : Scalar)
  /-- A sequence. -/
  | list (items : List Value)
  /-- A mapping from field names to values, in file order. -/
  | object (fields : List (String × Value))
  deriving Repr, BEq, Inhabited

namespace Value

/-- The absent value. -/
@[match_pattern] abbrev null : Value := .scalar .null

/-- A truth value. -/
@[match_pattern] abbrev bool (value : Bool) : Value := .scalar (.bool value)

/-- A whole number. -/
@[match_pattern] abbrev int (value : Int) : Value := .scalar (.int value)

/-- A text. -/
@[match_pattern] abbrev text (value : String) : Value := .scalar (.text value)

/-- A count as a value. -/
def nat (value : Nat) : Value := .int (Int.ofNat value)

/-- A sequence of texts. -/
def texts (values : List String) : Value := .list (values.map .text)

/-- Whether a value counts as present: null, false, zero and the empty text,
sequence and mapping do not. -/
def isPresent : Value -> Bool
  | .scalar .null => false
  | .scalar (.bool value) => value
  | .scalar (.int value) => value != 0
  | .scalar (.decimal (.finite _ magnitude _)) => magnitude != 0
  | .scalar (.decimal _) => true
  | .scalar (.text value) => !value.isEmpty
  | .list items => !items.isEmpty
  | .object fields => !fields.isEmpty

/-- Whether a value is the given text. -/
def isText (value : Value) (expected : String) : Bool :=
  match value with
  | .text actual => actual == expected
  | _ => false

/-- The first entry of a field list with the given name. -/
def fieldOf (name : String) (fields : List (String × Value)) : Option Value :=
  (fields.find? fun field => field.1 == name).map Prod.snd

/-- The value of a field of a mapping. -/
def field? (value : Value) (name : String) : Option Value :=
  match value with
  | .object fields => fieldOf name fields
  | _ => none

/-- The value of a field, or a default when the mapping lacks it. -/
def fieldD (fields : List (String × Value)) (name : String) (default : Value) : Value :=
  (fieldOf name fields).getD default

mutual

/-- Whether a value holds no undefined number. -/
def isDefined : Value -> Bool
  | .scalar value => value.isDefined
  | .list items => areDefined items
  | .object fields => fieldsDefined fields

/-- Whether no item of a sequence holds an undefined number. -/
def areDefined : List Value -> Bool
  | [] => true
  | item :: items => isDefined item && areDefined items

/-- Whether no field of a mapping holds an undefined number. -/
def fieldsDefined : List (String × Value) -> Bool
  | [] => true
  | (_, value) :: fields => isDefined value && fieldsDefined fields

end

mutual

/-- Whether two values are equal: numbers by what they denote, mappings by
their fields in any order. -/
def agrees : Value -> Value -> Bool
  | .scalar left, .scalar right => left.normal == right.normal
  | .list lefts, .list rights => itemsAgree lefts rights
  | .object lefts, .object rights => lefts.length == rights.length && fieldsAgree lefts rights
  | _, _ => false

/-- Whether two sequences are equal item by item. -/
def itemsAgree : List Value -> List Value -> Bool
  | [], [] => true
  | left :: lefts, right :: rights => agrees left right && itemsAgree lefts rights
  | _, _ => false

/-- Whether the fields of a mapping are all found in another one. -/
def fieldsAgree : List (String × Value) -> List (String × Value) -> Bool
  | [], _ => true
  | (name, left) :: lefts, rights =>
      (match fieldOf name rights with
        | some right => agrees left right
        | none => false) && fieldsAgree lefts rights

end

end Value

end PhpTaint.Json
