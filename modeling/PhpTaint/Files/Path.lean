/-!
# Paths

A path is a text whose parts are divided by slashes. Joining and splitting work
on the text and keep what was written; normalising works on the parts and
resolves the ones that stand for the same or the enclosing directory. No
operation of this module asks whether anything exists.
-/

namespace PhpTaint.Files

/-- The character between the parts of a path. -/
def slash : Char := '/'

/-- The pieces between the slashes of a text, empty ones included. -/
def splitSlashes : List Char -> List (List Char)
  | [] => [[]]
  | char :: rest =>
      if char = slash then [] :: splitSlashes rest
      else
        match splitSlashes rest with
        | [] => [[char]]
        | piece :: pieces => (char :: piece) :: pieces

/-- The parts of a path, empty ones included. -/
def partsOf (path : String) : List String := (splitSlashes path.toList).map String.ofList

/-- Whether a path starts at the root of the file system. -/
def isRooted (path : String) : Bool := path.toList.head? == some slash

/-- Whether a path holds the null character, which no path can lead through. -/
def holdsNull (path : String) : Bool := path.toList.any fun char => char.toNat == 0

/-- A path below another one; a rooted path stands for itself. -/
def joinPath (base path : String) : String :=
  if isRooted path then path
  else if base.isEmpty || base.toList.getLast? == some slash then base ++ path
  else base ++ "/" ++ path

/-- A path without the slashes at its end; a path of slashes only is kept. -/
def dropTrailingSlashes (path : String) : String :=
  let kept := (path.toList.reverse.dropWhile (· == slash)).reverse
  if kept.isEmpty then path else String.ofList kept

/-- Resolve one part against the parts before it, the last one first. -/
def resolvePart (resolved : List String) (part : String) : List String :=
  if part = "" || part = "." then resolved
  else if part = ".." then resolved.drop 1
  else part :: resolved

/-- The parts of a path after resolution. -/
def normalParts (path : String) : List String := ((partsOf path).foldl resolvePart []).reverse

/-- Remove the parts that two paths have in common at the front. -/
def dropCommon : List String -> List String -> List String × List String
  | left :: lefts, right :: rights =>
      if left = right then dropCommon lefts rights else (left :: lefts, right :: rights)
  | lefts, rights => (lefts, rights)

/-- The parts of the path that leads from a directory to a file. -/
def relativeParts (path start : String) : List String :=
  let (below, above) := dropCommon (normalParts path) (normalParts start)
  above.map (fun _ => "..") ++ below

end PhpTaint.Files
