/-!
# Beginnings of texts

Comparisons and cuts at the front of a text, stated on its characters.
-/

namespace PhpTaint.Text

/-- Whether a text begins with another one. -/
def beginsWith (text start : String) : Bool := start.toList.isPrefixOf text.toList

/-- Whether a text occurs inside a list of characters. -/
def occursIn (part : List Char) : List Char -> Bool
  | [] => part.isEmpty
  | char :: rest => part.isPrefixOf (char :: rest) || occursIn part rest

/-- Whether a text contains another one. -/
def includes (text part : String) : Bool := occursIn part.toList text.toList

/-- A text without the copies of a character at its front. -/
def dropLeading (char : Char) (text : String) : String :=
  String.ofList (text.toList.dropWhile (· == char))

/-- The first characters of a text. -/
def takeChars (count : Nat) (text : String) : String := String.ofList (text.toList.take count)

end PhpTaint.Text
