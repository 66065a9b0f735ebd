/-!
# White space

The set of blank characters is the one that the sources are trimmed by. It
contains the information separators U+001C to U+001F and the next-line control,
and it does not contain the zero-width space, the byte-order mark or NUL.
-/

namespace PhpTaint.Text

/-- Whether a character counts as white space at the ends of a text. -/
def isBlank (char : Char) : Bool :=
  let code := char.toNat
  (0x09 <= code && code <= 0x0D) || (0x1C <= code && code <= 0x20) || code == 0x85 ||
    code == 0xA0 || code == 0x1680 || (0x2000 <= code && code <= 0x200A) || code == 0x2028 ||
    code == 0x2029 || code == 0x202F || code == 0x205F || code == 0x3000

/-- The characters without the blanks at the front. -/
def trimFront (chars : List Char) : List Char := chars.dropWhile isBlank

/-- The text without the blanks at both ends. -/
def trim (text : String) : String :=
  String.ofList (trimFront (trimFront text.toList).reverse).reverse

end PhpTaint.Text
