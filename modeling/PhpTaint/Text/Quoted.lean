import PhpTaint.Text.Printable

/-!
# Quoted displays

Messages show names and code excerpts between quotes. The single quote is used
unless the text contains one and contains no double quote. The quote in use, the
backslash and the three common controls are written as short escapes; any other
character that is not printable is written by its code point, in two, four or
eight hexadecimal digits.
-/

namespace PhpTaint.Text

/-- The hexadecimal digits of a number, padded with zeros to a width. -/
def hexDigits (width value : Nat) : List Char :=
  let digits := Nat.toDigits 16 value
  List.replicate (width - digits.length) '0' ++ digits

/-- The quote that a display of these characters stands in. -/
def quoteFor (chars : List Char) : Char :=
  if chars.contains '\'' && !chars.contains '"' then '"' else '\''

/-- One character as it is written inside the given quote. -/
def quotedChar (quote char : Char) : List Char :=
  if char = quote || char = '\\' then ['\\', char]
  else if char = '\n' then ['\\', 'n']
  else if char = '\r' then ['\\', 'r']
  else if char = '\t' then ['\\', 't']
  else if isPrintable char then [char]
  else
    let code := char.toNat
    if code < 0x100 then '\\' :: 'x' :: hexDigits 2 code
    else if code < 0x10000 then '\\' :: 'u' :: hexDigits 4 code
    else '\\' :: 'U' :: hexDigits 8 code

/-- The text between quotes, with escapes. -/
def quoted (text : String) : String :=
  let chars := text.toList
  let quote := quoteFor chars
  String.ofList (quote :: chars.flatMap (quotedChar quote) ++ [quote])

/-- A list of texts as it is shown in messages: quoted, between brackets. -/
def quotedList (texts : List String) : String :=
  "[" ++ String.intercalate ", " (texts.map quoted) ++ "]"

end PhpTaint.Text
