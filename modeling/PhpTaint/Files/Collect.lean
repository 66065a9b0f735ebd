import PhpTaint.Fault
import PhpTaint.Files.Disk
import PhpTaint.Files.Pattern
import PhpTaint.Text.Case

/-!
# Collecting source files

The sources of a target are the target itself when it is a file, and otherwise
everything below it whose name ends in `.php`. Hidden files and directories are
passed over, and so are directories of vendored libraries unless they are asked
for. The target may hold patterns. The result is sorted.
-/

namespace PhpTaint.Files

/-- The pattern that stands for a directory and all directories below it. -/
def anyDepth : String := "**"

/-- The pattern of source files. -/
def sourcePattern : String := "*.php"

/-- Names of directories that hold vendored or generated files. -/
def vendorNames : List String :=
  ["vendor", "node_modules", "composer", "bower_components", "symfony", "laravel", "illuminate",
    "doctrine", "twig", "phpunit", "mockery", "psr", "monolog", "guzzlehttp", ".git", ".svn",
    "__pycache__", "cache", "tmp"]

/-- Whether one of the parts of a path is the name of a vendor directory, in any
letter case. -/
def hasVendorPart (parts : List String) : Bool :=
  parts.any fun part => vendorNames.contains (Text.lower part)

/-- Whether a path passes through a vendor directory. -/
def isVendorPath (path : String) : Bool := hasVendorPart (partsOf path)

namespace Disk

/-- The place of the directory that a path leads to; no path means the working
directory. -/
def directoryPlace? (disk : Disk) (path : String) : Option Place :=
  match disk.locate (if path.isEmpty then "." else path) with
  | .ok (.directory place) => some place
  | _ => none

/-- The directories below a place, relative to it, that can be reached without
passing through a hidden one. -/
def directoriesBelow (disk : Disk) (place : Place) : List Place :=
  (disk.allDirectories.filter fun inner => place.isPrefixOf inner && inner != place).filterMap
    fun inner =>
      let relative := inner.drop place.length
      if relative.any isHidden then none else some relative

/-- The names in a directory that are directories themselves. -/
def directoryNames (disk : Disk) (place : Place) : List String :=
  disk.allDirectories.filterMap fun inner =>
    if inner.length = place.length + 1 && place.isPrefixOf inner then inner.getLast? else none

/-- The names in a directory that are files. -/
def fileNames (disk : Disk) (place : Place) : List String :=
  disk.files.keys.filterMap fun inner =>
    if inner.length = place.length + 1 && place.isPrefixOf inner then inner.getLast? else none

/-- The names that a pattern selects: a hidden name needs a pattern that begins
with a dot. -/
def selectNames (pattern : String) (names : List String) : List String :=
  names.filter fun name =>
    (isHidden pattern || !isHidden name) && matchesPattern pattern name

/-- The names by which one part of a pattern continues a directory. -/
def expandPart (disk : Disk) (path part : String) : List String :=
  if part = anyDepth then
    match disk.directoryPlace? path with
    | some place => "" :: (disk.directoriesBelow place).map fun inner => String.intercalate "/" inner
    | none => []
  else if isPattern part then
    match disk.directoryPlace? path with
    | some place => selectNames part (disk.directoryNames place)
    | none => []
  else if disk.pathExists (joinPath path part) then [part]
  else []

/-- The paths by which one part of a pattern continues several directories. -/
def expandAll (disk : Disk) (paths : List String) (part : String) : List String :=
  paths.flatMap fun path => (disk.expandPart path part).map (joinPath path)

/-- The parts of a target before the first one that is a pattern. -/
def plainParts (target : String) : List String :=
  (partsOf target).takeWhile fun part => !isPattern part

/-- The directories that may hold sources of a target: those that the target
stands for and all directories below them. -/
def sourceDirectories (disk : Disk) (target : String) : List String :=
  let parts := partsOf target
  let plain := plainParts target
  let joined := String.intercalate "/" plain
  let start := if isRooted target && joined.isEmpty then "/" else dropTrailingSlashes joined
  let patterns := (parts.drop plain.length).filter fun part => part != ""
  (patterns ++ [anyDepth]).foldl disk.expandAll [start]

/-- The sources in one directory. A directory whose name looks like that of a
source is taken for one. -/
def sourcesIn (disk : Disk) (path : String) : List String :=
  match disk.directoryPlace? path with
  | some place =>
      (selectNames sourcePattern (disk.directoryNames place ++ disk.fileNames place)).map
        (joinPath path)
  | none => []

/-- All sources of a target that is not a file. -/
def sourcesBelow (disk : Disk) (target : String) : List String :=
  ((disk.sourceDirectories target).flatMap disk.sourcesIn).mergeSort
    fun left right => decide (left <= right)

end Disk

/-- The sources of a target. -/
structure Collection where
  paths : List String
  /-- The number of sources that were left out. -/
  skipped : Nat
  deriving DecidableEq, Repr

/-- Collect the sources of a target. The directory before the first pattern is
opened in any case, so it has to be a possible path. -/
def collect (disk : Disk) (target : String) (skipVendor : Bool) : Except Fault Collection :=
  if disk.isFile target then .ok ⟨[target], 0⟩
  else if (Disk.plainParts target).any holdsNull then .error .nullInPath
  else
    let found := disk.sourcesBelow target
    if skipVendor then
      let kept := found.filter fun path => !hasVendorPart (relativeParts path target)
      .ok ⟨kept, found.length - kept.length⟩
    else .ok ⟨found, 0⟩

end PhpTaint.Files
