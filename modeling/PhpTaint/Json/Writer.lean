import PhpTaint.Json.Value
import PhpTaint.Json.Number
import PhpTaint.Text.Quoted

/-!
# Writing data values

A value is written in one of two layouts. The compact layout holds a value on
one line. The report layout puts every item and field on a line of its own,
indented by two blanks per level. Both are pure ASCII: a character beyond the
ASCII graphics is written by its UTF-16 code units.

`plain` is the text of a value inside a sentence of the text report.
-/

namespace PhpTaint.Json

/-- A UTF-16 code unit as an escape. -/
def unitEscape (unit : Nat) : List Char := '\\' :: 'u' :: Text.hexDigits 4 unit

/-- One character inside a written text. -/
def writtenChar (char : Char) : List Char :=
  if char = '"' then ['\\', '"']
  else if char = '\\' then ['\\', '\\']
  else if char = '\n' then ['\\', 'n']
  else if char = '\r' then ['\\', 'r']
  else if char = '\t' then ['\\', 't']
  else
    let code := char.toNat
    if code = 0x08 then ['\\', 'b']
    else if code = 0x0C then ['\\', 'f']
    else if 0x20 <= code && code < 0x7F then [char]
    else if code < 0x10000 then unitEscape code
    else
      let offset := code - 0x10000
      unitEscape (0xD800 + offset / 0x400) ++ unitEscape (0xDC00 + offset % 0x400)

/-- A text between double quotes. -/
def writtenText (text : String) : String :=
  String.ofList ('"' :: text.toList.flatMap writtenChar ++ ['"'])

/-- A value without parts. -/
def Scalar.written : Scalar -> String
  | .null => "null"
  | .bool true => "true"
  | .bool false => "false"
  | .int value => toString value
  | .decimal value => value.written
  | .text value => writtenText value

mutual

/-- A value on one line. -/
def Value.compact : Value -> String
  | .scalar value => value.written
  | .list items => "[" ++ String.intercalate "," (compactItems items) ++ "]"
  | .object fields => "\x7b" ++ String.intercalate "," (compactFields fields) ++ "\x7d"

/-- The written items of a sequence on one line. -/
def compactItems : List Value -> List String
  | [] => []
  | item :: rest => item.compact :: compactItems rest

/-- The written fields of a mapping on one line. -/
def compactFields : List (String × Value) -> List String
  | [] => []
  | (name, value) :: rest => (writtenText name ++ ":" ++ value.compact) :: compactFields rest

end

/-- The start of a line at a nesting level. -/
def lineStart (level : Nat) : String := "\n" ++ String.ofList (List.replicate (2 * level) ' ')

/-- The parts of a sequence or mapping between its brackets, one per line. -/
def spread (opening closing : String) (level : Nat) (parts : List String) : String :=
  if parts.isEmpty then opening ++ closing
  else
    opening ++ lineStart (level + 1) ++
      String.intercalate ("," ++ lineStart (level + 1)) parts ++ lineStart level ++ closing

mutual

/-- A value in the report layout, at a nesting level. -/
def Value.indentedAt (level : Nat) : Value -> String
  | .scalar value => value.written
  | .list items => spread "[" "]" level (indentedItems (level + 1) items)
  | .object fields => spread "\x7b" "\x7d" level (indentedFields (level + 1) fields)

/-- The items of a sequence in the report layout. -/
def indentedItems (level : Nat) : List Value -> List String
  | [] => []
  | item :: rest => item.indentedAt level :: indentedItems level rest

/-- The fields of a mapping in the report layout. -/
def indentedFields (level : Nat) : List (String × Value) -> List String
  | [] => []
  | (name, value) :: rest =>
      (writtenText name ++ ": " ++ value.indentedAt level) :: indentedFields level rest

end

/-- A value in the report layout. -/
def Value.indented (value : Value) : String := value.indentedAt 0

/-- A scalar inside a listing: texts are quoted. -/
def Scalar.listed : Scalar -> String
  | .null => "None"
  | .bool true => "True"
  | .bool false => "False"
  | .int value => toString value
  | .decimal value => value.listed
  | .text value => Text.quoted value

mutual

/-- A value inside a listing. -/
def Value.listed : Value -> String
  | .scalar value => value.listed
  | .list items => "[" ++ String.intercalate ", " (listedItems items) ++ "]"
  | .object fields => "\x7b" ++ String.intercalate ", " (listedFields fields) ++ "\x7d"

/-- The items of a sequence inside a listing. -/
def listedItems : List Value -> List String
  | [] => []
  | item :: rest => item.listed :: listedItems rest

/-- The fields of a mapping inside a listing. -/
def listedFields : List (String × Value) -> List String
  | [] => []
  | (name, value) :: rest => (Text.quoted name ++ ": " ++ value.listed) :: listedFields rest

end

/-- A value inside a sentence: a text stands for itself. -/
def Value.plain : Value -> String
  | .text value => value
  | value => value.listed

end PhpTaint.Json
