import PhpTaint.Files.Disk
import PhpTaint.Json.Reader
import PhpTaint.Rules.Reader
import PhpTaint.Syntax.Reader

/-!
# Reading a disk

The content of a working directory can be given as data: its files with their
text or their bytes in hexadecimal digits, and with the syntax tree of those
that were parsed; directories that may be empty; and rule directories with the
descriptions of their files.
-/

namespace PhpTaint.Files

open Json (Value hexValue?)
open Syntax (Tree)

/-- The bytes that pairs of hexadecimal digits denote, up to the first text that
is no such pair. -/
def bytesOfHex : List Char -> List UInt8
  | high :: low :: rest =>
      match hexValue? high, hexValue? low with
      | some upper, some lower => (upper * 16 + lower).toUInt8 :: bytesOfHex rest
      | _, _ => []
  | _ => []

/-- The text of a field, empty when there is none. -/
def textOf (value : Value) (field : String) : String :=
  match value.field? field with
  | some (.text text) => text
  | _ => ""

/-- The items of a field, none when there are none. -/
def itemsOf (value : Value) (field : String) : List Value :=
  match value.field? field with
  | some (.list items) => items
  | _ => []

/-- The file that a value describes. -/
def File.ofValue (value : Value) : File where
  bytes :=
    match value.field? "hex" with
    | some (.text digits) => bytesOfHex digits.toList
    | _ => (textOf value "text").toUTF8.toList
  tree := (value.field? "tree").bind Tree.ofValue?
  data := none

/-- Add a described file. -/
def Disk.addFile (disk : Disk) (value : Value) : Disk :=
  { disk with files := disk.files.insert (normalParts (textOf value "path")) (File.ofValue value) }

/-- Add a directory. -/
def Disk.addDirectory (disk : Disk) (path : String) : Disk :=
  { disk with directories := disk.directories ++ [normalParts path] }

/-- The three rule files of a directory. -/
def ruleFileNames : List String := ["sources", "sinks", "sanitizers"]

/-- Add one rule file of a directory, if it is described. -/
def Disk.addRuleFile (path : String) (description : Value) (disk : Disk) (name : String) :
    Except Fault Disk := do
  match ← Rules.fileContent? description name with
  | some content =>
      let place := normalParts path ++ [name ++ ".yml"]
      return { disk with files := disk.files.insert place ⟨[], none, some content⟩ }
  | none => return disk

/-- Add a described rule directory. -/
def Disk.addRules (disk : Disk) (value : Value) : Except Fault Disk :=
  match value with
  | .list [.text path, description] =>
      ruleFileNames.foldlM (Disk.addRuleFile path description) (disk.addDirectory path)
  | _ => .ok disk

/-- Add a directory that is given by its path. -/
def Disk.addDirectoryValue (disk : Disk) (value : Value) : Disk :=
  match value with
  | .text path => disk.addDirectory path
  | _ => disk

/-- The disk that a value describes. A rule file that cannot be one is refused. -/
def Disk.ofValue (value : Value) : Except Fault Disk :=
  let files := (itemsOf value "files").foldl Disk.addFile ∅
  let directories := (itemsOf value "dirs").foldl Disk.addDirectoryValue files
  (itemsOf value "rules").foldlM Disk.addRules directories

end PhpTaint.Files
