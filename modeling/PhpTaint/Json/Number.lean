import PhpTaint.Json.Value

/-!
# Text of decimal numbers

A decimal is written with the digits that it has, without trailing zeros.
Positional notation is used while the point stands at most four places before
and sixteen places after the first digit; other numbers carry an exponent of at
least two digits. A positional number always shows a point. Values that are no
finite numbers have names, which are longer in data files than in listings.
-/

namespace PhpTaint.Json

/-- Remove the trailing zeros of a list of digits. -/
def dropTrailingZeros (digits : List Char) : List Char :=
  (digits.reverse.dropWhile (· == '0')).reverse

/-- The exponent part of a number whose first digit stands at `exponent`. -/
def exponentText (exponent : Int) : String :=
  let magnitude := toString exponent.natAbs
  let padded := if magnitude.length < 2 then "0" ++ magnitude else magnitude
  (if exponent < 0 then "e-" else "e+") ++ padded

/-- The text of a magnitude given by its digits and the position of its decimal
point, counted from the front of the digits. -/
def magnitudeText (digits : List Char) (point : Int) : String :=
  if -4 < point && point <= 16 then
    if point <= 0 then
      "0." ++ String.ofList (List.replicate point.natAbs '0' ++ digits)
    else
      let whole := point.toNat
      if digits.length <= whole then
        String.ofList (digits ++ List.replicate (whole - digits.length) '0') ++ ".0"
      else
        String.ofList (digits.take whole) ++ "." ++ String.ofList (digits.drop whole)
  else
    let fraction := digits.drop 1
    String.ofList (digits.take 1) ++
      (if fraction.isEmpty then "" else "." ++ String.ofList fraction) ++ exponentText (point - 1)

/-- The sign of a number as it is written. -/
def signText (negative : Bool) : String := if negative then "-" else ""

/-- The text of `magnitude / 10 ^ places`. -/
def finiteText (magnitude places : Nat) : String :=
  if magnitude = 0 then "0.0"
  else
    let digits := Nat.toDigits 10 magnitude
    magnitudeText (dropTrailingZeros digits) (Int.ofNat digits.length - Int.ofNat places)

/-- A decimal in a listing. -/
def Decimal.listed : Decimal -> String
  | .finite negative magnitude places => signText negative ++ finiteText magnitude places
  | .infinite negative => signText negative ++ "inf"
  | .undefined => "nan"

/-- A decimal in a data file. -/
def Decimal.written : Decimal -> String
  | .finite negative magnitude places => signText negative ++ finiteText magnitude places
  | .infinite negative => signText negative ++ "Infinity"
  | .undefined => "NaN"

end PhpTaint.Json
