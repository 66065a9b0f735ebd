import PhpTaint.Files.Path
import PhpTaint.Json.Document
import PhpTaint.Syntax.Tree
import PhpTaint.Table
import PhpTaint.Text.Quoted
import PhpTaint.Text.Utf8

/-!
# Files and directories

A `Disk` is the content of the working directory. Files are kept under the parts
of their paths from the working directory, and a directory exists when it was
given or when something is in it. Nothing is known about the directories around
the working directory except that they are there.

A file that was parsed carries the result: a syntax tree, or the data of a rule
file.
-/

namespace PhpTaint.Files

open Json (Document)
open Syntax (Tree)

/-- A file: its bytes, and what parsers made of it. -/
structure File where
  bytes : List UInt8
  /-- The syntax tree of the text. -/
  tree : Option Tree
  /-- The data in the text. -/
  data : Option Document

/-- Where something stands below the working directory. -/
abbrev Place := List String

/-- The content of the working directory. -/
structure Disk where
  files : Table Place File
  /-- The directories that were given by themselves. -/
  directories : List Place

instance : EmptyCollection Disk := ⟨⟨∅, []⟩⟩

/-- Why a path could not be opened. -/
inductive FileFault where
  /-- Nothing is there. -/
  | notFound
  /-- A part of the path is a file and not a directory. -/
  | notADirectory
  /-- The path leads to a directory. -/
  | isADirectory
  /-- The path or a part of it is too long. -/
  | nameTooLong
  deriving DecidableEq, Repr

/-- The message of a fault at a path. -/
def FileFault.message (path : String) : FileFault -> String
  | .notFound => "[Errno 2] No such file or directory: " ++ Text.quoted path
  | .notADirectory => "[Errno 20] Not a directory: " ++ Text.quoted path
  | .isADirectory => "[Errno 21] Is a directory: " ++ Text.quoted path
  | .nameTooLong => "[Errno 36] File name too long: " ++ Text.quoted path

/-- What a path can lead to. -/
inductive Location where
  /-- A file. -/
  | file (place : Place) (content : File)
  /-- A directory. -/
  | directory (place : Place)
  /-- A directory around the working directory. -/
  | outside

/-- The number of bytes that a part of a path may have. -/
def nameLimit : Nat := 255

/-- The number of bytes that a path must not reach. -/
def pathLimit : Nat := 4096

/-- Whether a part of a path stands for the directory before it. -/
def staysInPlace (part : String) : Bool := part = "" || part = "."

/-- The part of a path that stands for the enclosing directory. -/
def parentPart : String := ".."

/-- A place and all places around it except the working directory. -/
def placesAround (place : Place) : List Place :=
  (List.range place.length).map fun count => place.take (count + 1)

namespace Disk

/-- All directories below the working directory. -/
def allDirectories (disk : Disk) : List Place :=
  (disk.files.keys.flatMap (fun place => placesAround place.dropLast) ++
    disk.directories.flatMap placesAround).eraseDups

/-- What stands at a place. -/
def locationAt? (disk : Disk) (place : Place) : Option Location :=
  match disk.files.find? place with
  | some content => some (.file place content)
  | none =>
      if place.isEmpty || disk.allDirectories.contains place then some (.directory place) else none

/-- What a name in a directory leads to. -/
def lookUp (disk : Disk) (place : Place) (name : String) : Except FileFault Location :=
  if nameLimit < name.utf8ByteSize then .error .nameTooLong
  else
    match disk.locationAt? (place ++ [name]) with
    | some location => .ok location
    | none => .error .notFound

/-- Follow one part of a path. -/
def follow (disk : Disk) (location : Location) (part : String) : Except FileFault Location :=
  match location with
  | .file _ _ => .error .notADirectory
  | .directory place =>
      if staysInPlace part then .ok location
      else if part = parentPart then
        .ok (if place.isEmpty then .outside else .directory place.dropLast)
      else disk.lookUp place part
  | .outside =>
      if staysInPlace part || part = parentPart then .ok location
      else if nameLimit < part.utf8ByteSize then .error .nameTooLong
      else .error .notFound

/-- What the parts of a path lead to. -/
def followAll (disk : Disk) (rooted : Bool) (parts : List String) : Except FileFault Location :=
  parts.foldlM disk.follow (if rooted then .outside else .directory [])

/-- Refuse a path that can lead nowhere, whatever is on the disk. -/
def checkPath (path : String) : Except FileFault Unit :=
  if path.isEmpty || holdsNull path then .error .notFound
  else if pathLimit <= path.utf8ByteSize then .error .nameTooLong
  else .ok ()

/-- What a path leads to. -/
def locate (disk : Disk) (path : String) : Except FileFault Location := do
  checkPath path
  disk.followAll (isRooted path) (partsOf path)

/-- Whether a path leads to anything. -/
def pathExists (disk : Disk) (path : String) : Bool :=
  match disk.locate path with
  | .ok _ => true
  | .error _ => false

/-- Whether a path leads to a file. -/
def isFile (disk : Disk) (path : String) : Bool :=
  match disk.locate path with
  | .ok (.file _ _) => true
  | _ => false

/-- Whether a path leads to a directory. -/
def isDirectory (disk : Disk) (path : String) : Bool :=
  match disk.locate path with
  | .ok (.directory _) | .ok .outside => true
  | _ => false

/-- The file that a path leads to. -/
def openFile (disk : Disk) (path : String) : Except FileFault File := do
  match ← disk.locate path with
  | .file _ content => return content
  | .directory _ | .outside => .error .isADirectory

/-- The place at which a name creates or replaces a file, where its directory is
what the path before it leads to. -/
def placeIn (disk : Disk) (name : String) : Location -> Except FileFault Place
  | .file _ _ => .error .notADirectory
  | .outside =>
      if staysInPlace name || name = parentPart then .error .isADirectory else .error .notFound
  | .directory place =>
      if staysInPlace name || name = parentPart then .error .isADirectory
      else if nameLimit < name.utf8ByteSize then .error .nameTooLong
      else
        match disk.locationAt? (place ++ [name]) with
        | some (.directory _) => .error .isADirectory
        | _ => .ok (place ++ [name])

/-- The place at which a path creates or replaces a file. A slash at the end asks
for a directory, whatever stands before it. -/
def writePlace (disk : Disk) (path : String) : Except FileFault Place := do
  checkPath path
  let parts := partsOf path
  let named := (parts.reverse.dropWhile (·.isEmpty)).reverse
  let location ← disk.followAll (isRooted path) named.dropLast
  disk.placeIn (if named.length < parts.length then "" else named.getLast?.getD "") location

/-- Write a text to a path. -/
def write (disk : Disk) (path text : String) : Except FileFault Disk := do
  let place ← disk.writePlace path
  return { disk with files := disk.files.insert place ⟨text.toUTF8.toList, none, none⟩ }

end Disk

/-- Line ends as they are read: every line ends in a line feed. -/
def unifyLineEnds : List Char -> List Char
  | '\r' :: '\n' :: rest => '\n' :: unifyLineEnds rest
  | '\r' :: rest => '\n' :: unifyLineEnds rest
  | char :: rest => char :: unifyLineEnds rest
  | [] => []

/-- The text of a file; bytes that are not well-formed are left out. -/
def File.text (file : File) : String :=
  String.ofList (unifyLineEnds (Text.Utf8.decodeDropping file.bytes).toList)

end PhpTaint.Files
