import PhpTaint.Json.Value

/-!
# Reading data values

`Value.read?` reads one value from a text. It keeps the fields of a mapping in
file order; a field that is given twice keeps its first place and its last
value. Every reading step consumes at least one character, so the number of
characters bounds the nesting that has to be explored.
-/

namespace PhpTaint.Json

/-- Skip the white space between tokens. -/
def skipSpace : List Char -> List Char
  | ' ' :: rest => skipSpace rest
  | '\n' :: rest => skipSpace rest
  | '\r' :: rest => skipSpace rest
  | '\t' :: rest => skipSpace rest
  | chars => chars

/-- The value of a hexadecimal digit. -/
def hexValue? (char : Char) : Option Nat :=
  if '0' <= char && char <= '9' then some (char.toNat - '0'.toNat)
  else if 'a' <= char && char <= 'f' then some (char.toNat - 'a'.toNat + 10)
  else if 'A' <= char && char <= 'F' then some (char.toNat - 'A'.toNat + 10)
  else none

/-- The value of four hexadecimal digits. -/
def hexUnit? (first second third fourth : Char) : Option Nat := do
  let a ← hexValue? first
  let b ← hexValue? second
  let c ← hexValue? third
  let d ← hexValue? fourth
  return ((a * 16 + b) * 16 + c) * 16 + d

/-- The character of a one-letter escape. -/
def shortEscape? (char : Char) : Option Char :=
  match char with
  | 'n' => some '\n'
  | 'r' => some '\r'
  | 't' => some '\t'
  | 'b' => some (Char.ofNat 0x08)
  | 'f' => some (Char.ofNat 0x0C)
  | '"' => some '"'
  | '\\' => some '\\'
  | '/' => some '/'
  | _ => none

/-- Read the rest of a text up to its closing quote. A high surrogate waits for
the low one that completes it. -/
def readText (high : Option Nat) (collected : List Char) :
    List Char -> Option (String × List Char)
  | [] => none
  | '"' :: rest => some (String.ofList collected.reverse, rest)
  | '\\' :: 'u' :: a :: b :: c :: d :: rest => do
      let unit ← hexUnit? a b c d
      match high with
      | some lead =>
          readText none
            (Char.ofNat (0x10000 + (lead - 0xD800) * 0x400 + (unit - 0xDC00)) :: collected) rest
      | none =>
          if 0xD800 <= unit && unit < 0xDC00 then readText (some unit) collected rest
          else readText none (Char.ofNat unit :: collected) rest
  | '\\' :: escape :: rest => do
      let char ← shortEscape? escape
      readText none (char :: collected) rest
  | char :: rest => readText none (char :: collected) rest

/-- The digits at the front, and what follows them. -/
def splitDigits (chars : List Char) : List Char × List Char := chars.span Char.isDigit

/-- The number that digits denote. -/
def digitsValue (digits : List Char) : Nat :=
  digits.foldl (fun value digit => value * 10 + (digit.toNat - '0'.toNat)) 0

/-- The signed exponent after an exponent mark, if the characters begin with
one. -/
def readExponent (chars : List Char) : Option (Int × List Char) :=
  match chars with
  | mark :: rest =>
      if mark = 'e' || mark = 'E' then
        match rest with
        | '-' :: digits =>
            let (exponent, after) := splitDigits digits
            some (-Int.ofNat (digitsValue exponent), after)
        | '+' :: digits =>
            let (exponent, after) := splitDigits digits
            some (Int.ofNat (digitsValue exponent), after)
        | digits =>
            let (exponent, after) := splitDigits digits
            some (Int.ofNat (digitsValue exponent), after)
      else none
  | [] => none

/-- The scalar of a number with a point or an exponent. -/
def decimalOf (negative : Bool) (digits : List Char) (places : Int) : Scalar :=
  let magnitude := digitsValue digits
  .decimal (if places < 0 then .finite negative (magnitude * Nat.pow 10 places.natAbs) 0
    else .finite negative magnitude places.toNat)

/-- Read a number without its sign. -/
def readUnsigned (negative : Bool) (chars : List Char) : Option (Scalar × List Char) :=
  let (whole, afterWhole) := splitDigits chars
  if whole.isEmpty then none
  else
    let (fraction, afterFraction) := match afterWhole with
      | '.' :: rest => splitDigits rest
      | other => ([], other)
    match readExponent afterFraction with
    | some (exponent, after) =>
        some (decimalOf negative (whole ++ fraction) (Int.ofNat fraction.length - exponent), after)
    | none =>
        if fraction.isEmpty then some (.int (signed negative (digitsValue whole)), afterFraction)
        else some (decimalOf negative (whole ++ fraction) (Int.ofNat fraction.length), afterFraction)

/-- Read a number, or the name of a value that is no finite number. -/
def readNumber (chars : List Char) : Option (Scalar × List Char) :=
  let (negative, unsigned) := match chars with
    | '-' :: rest => (true, rest)
    | other => (false, other)
  match unsigned with
  | 'I' :: 'n' :: 'f' :: 'i' :: 'n' :: 'i' :: 't' :: 'y' :: rest =>
      some (.decimal (.infinite negative), rest)
  | 'N' :: 'a' :: 'N' :: rest => if negative then none else some (.decimal .undefined, rest)
  | other => readUnsigned negative other

/-- Add a field; a repeated name keeps its place and takes the new value. -/
def addField (name : String) (value : Value) :
    List (String × Value) -> List (String × Value)
  | [] => [(name, value)]
  | field :: rest =>
      if field.1 == name then (name, value) :: rest else field :: addField name value rest

mutual

/-- Read one value, exploring at most `budget` nested steps. -/
def readValue : Nat -> List Char -> Option (Value × List Char)
  | 0, _ => none
  | budget + 1, chars =>
      match skipSpace chars with
      | 'n' :: 'u' :: 'l' :: 'l' :: rest => some (.null, rest)
      | 't' :: 'r' :: 'u' :: 'e' :: rest => some (.bool true, rest)
      | 'f' :: 'a' :: 'l' :: 's' :: 'e' :: rest => some (.bool false, rest)
      | '"' :: rest => (readText none [] rest).map fun (text, after) => (.text text, after)
      | '[' :: rest =>
          match skipSpace rest with
          | ']' :: after => some (.list [], after)
          | inner => readItems budget [] inner
      | '\x7b' :: rest =>
          match skipSpace rest with
          | '\x7d' :: after => some (.object [], after)
          | inner => readFields budget [] inner
      | other => (readNumber other).map fun (number, after) => (.scalar number, after)

/-- Read the items of a sequence up to its closing bracket. -/
def readItems : Nat -> List Value -> List Char -> Option (Value × List Char)
  | 0, _, _ => none
  | budget + 1, collected, chars => do
      let (item, rest) ← readValue budget chars
      match skipSpace rest with
      | ',' :: more => readItems budget (item :: collected) more
      | ']' :: after => some (.list (item :: collected).reverse, after)
      | _ => none

/-- Read the fields of a mapping up to its closing bracket. -/
def readFields : Nat -> List (String × Value) -> List Char -> Option (Value × List Char)
  | 0, _, _ => none
  | budget + 1, collected, chars =>
      match skipSpace chars with
      | '"' :: quotedName => do
          let (name, afterName) ← readText none [] quotedName
          match skipSpace afterName with
          | ':' :: valueChars => do
              let (value, rest) ← readValue budget valueChars
              match skipSpace rest with
              | ',' :: more => readFields budget (addField name value collected) more
              | '\x7d' :: after => some (.object (addField name value collected), after)
              | _ => none
          | _ => none
      | _ => none

end

/-- Read a text that holds one value and nothing else. -/
def Value.read? (text : String) : Option Value :=
  let chars := text.toList
  match readValue (chars.length + 1) chars with
  | some (value, rest) => if (skipSpace rest).isEmpty then some value else none
  | none => none

end PhpTaint.Json
