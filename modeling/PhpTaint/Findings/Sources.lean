import PhpTaint.Files.Disk
import PhpTaint.Findings.Search

/-!
# Searching files of a disk

The files of a search are opened one after the other before any of them is
annotated. A file that cannot be opened is skipped, with a note, and the others
are searched all the same; only a path that no file can have ends the search. A
file that was not parsed has no syntax to search.
-/

namespace PhpTaint.Findings

open Files Rules Syntax

/-- The tree of a file that was not parsed. -/
def unparsed : Tree := .node "program" true 0 0 "" []

/-- The root of the file at a path. -/
def rootOf (path : String) (file : File) : Node :=
  Node.ofParsed path file.text (file.tree.getD unparsed)

/-- What opening several files has come to. -/
structure Opened where
  roots : List Node
  /-- The skipped files with the reasons. -/
  errors : List (String × String)
  /-- Notes, newest first. -/
  journal : Journal

/-- Open one file. -/
def Opened.add (disk : Disk) (opened : Opened) (path : String) : Opened :=
  match disk.openFile path with
  | .ok file => { opened with roots := opened.roots ++ [rootOf path file] }
  | .error fault =>
      let message := fault.message path
      let note : Note := ⟨.warning, .findings, "Cannot read " ++ path ++ ": " ++ message⟩
      { opened with
        errors := opened.errors ++ [(path, message)]
        journal := note :: opened.journal }

/-- Search the files at some paths. Skipped files and notes are added to those of
earlier searches. -/
def searchPaths (disk : Disk) (rules : RuleSet) (includeUnknown : Bool)
    (errors : List (String × String)) (journal : Journal) (paths : List String) : Outcome :=
  let possible := paths.takeWhile fun path => !holdsNull path
  let opened := possible.foldl (Opened.add disk) ⟨[], errors, journal⟩
  if possible.length < paths.length then
    { findings := .error .nullInPath, errors := opened.errors, journal := opened.journal }
  else search rules includeUnknown opened.errors opened.journal opened.roots

end PhpTaint.Findings
