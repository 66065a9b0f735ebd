import PhpTaint.Fault
import PhpTaint.Text.Case

/-!
# Qualified names

Names of functions, classes, constants and namespaces consist of segments that
a separator divides. A name that begins with the separator is absolute. A name
that begins with the segment `namespace`, in any letter case, is relative to the
namespace in which it stands, and that first segment is dropped before anything
else is decided.

`NameView` is the one-step reading of a name on which all lookups recurse. The
remainder that a step leaves is always shorter than the name it was taken from.
-/

namespace PhpTaint.Scopes

/-- The character between the segments of a name. -/
def separator : Char := '\\'

/-- Whether a name begins with the separator. -/
def isAbsolute (name : List Char) : Bool := name.head? == some separator

/-- Whether a name is a single segment. -/
def isUnqualified (name : List Char) : Bool := !name.contains separator

/-- The segment, with its separator, that names the current namespace. -/
def relativeMark : List Char := "namespace\\".toList

/-- Drop the segment that names the current namespace. -/
def dropRelative (name : List Char) : List Char :=
  if relativeMark.isPrefixOf (Text.lowerChars name) then name.drop relativeMark.length else name

/-- The first segment of a name. -/
def headSegment (name : List Char) : List Char := name.takeWhile (· != separator)

/-- What follows the first separator. -/
def tailSegments (name : List Char) : List Char := (name.dropWhile (· != separator)).drop 1

/-- The first step of resolving a name. -/
inductive NameView where
  /-- A single segment, looked up where the lookup stands. -/
  | plain (name : List Char)
  /-- The lookup starts over at the global namespace. -/
  | absolute (rest : List Char)
  /-- The lookup enters the namespace `head`. -/
  | qualified (head tail : List Char)

/-- Read the first step of a name. -/
def NameView.of (name : List Char) : NameView :=
  let stripped := dropRelative name
  if isAbsolute stripped then .absolute (stripped.dropWhile (· == separator))
  else if isUnqualified stripped then .plain stripped
  else .qualified (headSegment stripped) (tailSegments stripped)

theorem length_dropRelative_le (name : List Char) : (dropRelative name).length <= name.length := by
  unfold dropRelative
  split
  · simp
  · exact Nat.le_refl _

theorem length_dropWhile_le (test : Char -> Bool) (chars : List Char) :
    (chars.dropWhile test).length <= chars.length :=
  (List.dropWhile_suffix test).length_le

/-- A name with a separator is longer than what follows its first separator. -/
theorem length_tailSegments_lt {name : List Char} (qualified : isUnqualified name = false) :
    (tailSegments name).length < name.length := by
  have nonempty : 0 < name.length := by
    cases name with
    | nil => simp [isUnqualified] at qualified
    | cons char rest => simp
  have bound := length_dropWhile_le (· != separator) name
  simp only [tailSegments, List.length_drop]
  omega

/-- The remainder of an absolute name is shorter than the name. -/
theorem NameView.length_absolute_lt {name rest : List Char}
    (view : NameView.of name = .absolute rest) : rest.length < name.length := by
  have bound := length_dropRelative_le name
  unfold NameView.of at view
  simp only at view
  split at view
  · rename_i absolute
    injection view with equal
    subst equal
    cases stripped : dropRelative name with
    | nil => simp [stripped, isAbsolute] at absolute
    | cons char tail =>
        simp only [stripped, isAbsolute, List.head?_cons, beq_iff_eq, Option.some.injEq] at absolute
        have inner := length_dropWhile_le (· == separator) tail
        simp only [stripped, List.length_cons] at bound
        simp only [List.dropWhile_cons, absolute, beq_self_eq_true, if_true]
        omega
  · split at view <;> cases view

/-- The remainder of a qualified name is shorter than the name. -/
theorem NameView.length_qualified_lt {name head tail : List Char}
    (view : NameView.of name = .qualified head tail) : tail.length < name.length := by
  have bound := length_dropRelative_le name
  unfold NameView.of at view
  simp only at view
  split at view
  · cases view
  · split at view
    · cases view
    · rename_i qualified
      injection view with _ equal
      subst equal
      have := length_tailSegments_lt (Bool.eq_false_iff.2 qualified)
      omega

/-- Split a name at its first separator; a single segment has no head. An
absolute name cannot be split. -/
def splitName (name : String) : Except Fault (Option String × String) :=
  let chars := name.toList
  if isAbsolute chars then .error (.absoluteName name)
  else if isUnqualified chars then .ok (none, name)
  else .ok (some (String.ofList (headSegment chars)), String.ofList (tailSegments chars))

end PhpTaint.Scopes
