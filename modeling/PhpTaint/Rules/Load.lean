import PhpTaint.Journal
import PhpTaint.Json.Document
import PhpTaint.Rules.Basic

/-!
# Loading rules

A rule directory holds one file for each of sources, sinks and sanitizers. A
file is a mapping from groups to lists of entries; a group that is not a list is
passed over. A missing file and a file without content load as no rules.

Entries are taken in file order. An entry whose key is already in the table
replaces the earlier one in its place and under its key, except that a reversing
function keeps the first sanitizer it was declared for. The keys of sources may
be numbers and truth values, and those are equal when they denote the same.
-/

namespace PhpTaint.Rules

open Json

/-- What stands in the place of a rule file. -/
inductive RuleContent where
  /-- Nothing. -/
  | missing
  /-- A directory. -/
  | directory
  /-- A file with the given content. -/
  | data (content : Document)

/-- One rule file. -/
structure RuleFile where
  /-- The path as messages show it. -/
  path : String
  content : RuleContent

/-- The rule files of a directory. -/
structure RuleDirectory where
  /-- The directory as messages show it. -/
  path : String
  sources : RuleFile
  sinks : RuleFile
  sanitizers : RuleFile

/-- An operation on rule files: it takes notes and may be refused. -/
abbrev Loading := EStateM Fault Journal

/-- Take a note. -/
def note (urgency : Urgency) (text : String) : Loading Unit :=
  modify fun journal => ⟨urgency, .rules, text⟩ :: journal

/-- The fields of an entry; an entry that is not a mapping has none to ask for. -/
def entryFields : Value -> Except Fault (List (String × Value))
  | .object fields => .ok fields
  | _ => .error .missingOperation

/-- Fold the entries of all list-valued groups of a file content. -/
def foldEntries {σ : Type} (content : Document) (initial : σ)
    (step : Scalar -> σ -> Value -> Except Fault σ) : Except Fault σ := do
  let groups ← content.entries
  groups.foldlM
    (fun state group =>
      match group.2 with
      | .list entries => entries.foldlM (step group.1) state
      | _ => .ok state)
    initial

/-- Add one source with its fields. -/
def addSourceFields (category : Scalar) (table : Table Scalar SourceRule)
    (fields : List (String × Value)) : Except Fault (Table Scalar SourceRule) := do
  let name := Value.fieldD fields "name" (.text "")
  let key ←
    if category = functionCategory then do
      let text ← requireText name
      pure (Scalar.text (Text.lower text))
    else requireScalar name
  let shown ← requireScalar name
  let spelled := ((table.find? key.normal).map SourceRule.key).getD key
  return table.insert key.normal
    ⟨spelled, shown, category, Value.fieldD fields "description" (.text "")⟩

/-- Add one entry of the file of sources: a mapping or a bare name. Other
entries are passed over. -/
def addSource (category : Scalar) (table : Table Scalar SourceRule) (entry : Value) :
    Except Fault (Table Scalar SourceRule) :=
  match entry with
  | .text name => addSourceFields category table [("name", .text name)]
  | .object fields => addSourceFields category table fields
  | _ => .ok table

/-- Add one entry of the file of sinks. -/
def addSink (vulnerability : Scalar) (table : Table String SinkRule) (entry : Value) :
    Except Fault (Table String SinkRule) := do
  let fields ← entryFields entry
  let name ← requireText (Value.fieldD fields "name" (.text ""))
  return table.insert (Text.lower name)
    { name := name
      vulnerability := vulnerability
      severity := Value.fieldD fields "severity" (.text "HIGH")
      positions := Value.fieldD fields "arg_positions" (.list [.int 0])
      cwe := Value.fieldD fields "cwe" (.text "")
      kind := Value.fieldD fields "kind" (.text "function")
      description := Value.fieldD fields "description" (.text "") }

/-- Declare the reversing functions of a sanitizer. -/
def addReverses (sanitizer : String) (table : Table String String) (reversedBy : Value) :
    Except Fault (Table String String) := do
  let reverses ← requireParts reversedBy
  reverses.foldlM
    (fun current reverse => do
      let name ← requireText reverse
      return current.insertIfNew (Text.lower name) (Text.lower sanitizer))
    table

/-- Add one entry of the file of sanitizers. -/
def addSanitizer (category : Scalar)
    (tables : Table String SanitizerRule × Table String String) (entry : Value) :
    Except Fault (Table String SanitizerRule × Table String String) := do
  let fields ← entryFields entry
  let name ← requireText (Value.fieldD fields "name" (.text ""))
  let reversedBy := Value.fieldD fields "reversed_by" (.list [])
  let sanitizers := tables.1.insert (Text.lower name)
    { name := name
      protectsAgainst := Value.fieldD fields "protects_against" (.list [.scalar category])
      reversedBy := reversedBy
      strength := Value.fieldD fields "strength" (.text "strong") }
  let reverses ← addReverses name tables.2 reversedBy
  return (sanitizers, reverses)

/-- The sources of a file content. -/
def sourcesOf (content : Document) : Except Fault (Table Scalar SourceRule) :=
  foldEntries content ∅ addSource

/-- The sinks of a file content. -/
def sinksOf (content : Document) : Except Fault (Table String SinkRule) :=
  foldEntries content ∅ addSink

/-- The sanitizers of a file content, with their reversing functions. -/
def sanitizersOf (content : Document) :
    Except Fault (Table String SanitizerRule × Table String String) :=
  foldEntries content (∅, ∅) addSanitizer

/-- The rules in the contents of the three files. -/
def RuleSet.ofContents (sources sinks sanitizers : Document) : Except Fault RuleSet := do
  let sourceTable ← sourcesOf sources
  let sinkTable ← sinksOf sinks
  let (sanitizerTable, reverses) ← sanitizersOf sanitizers
  return ⟨sourceTable, sinkTable, sanitizerTable, reverses⟩

/-- The content of a rule file; a missing one is noted. -/
def contentOf (file : RuleFile) : Loading Document :=
  match file.content with
  | .data content => return content
  | .directory => throw (.directoryForFile file.path)
  | .missing => do
      note .warning ("Rule file " ++ file.path ++ " not found")
      return ∅

/-- Turn a refusal into one of the loading. -/
def orRefuse {α : Type} (result : Except Fault α) : Loading α :=
  match result with
  | .ok value => return value
  | .error fault => throw fault

/-- The counts of a rule set as messages show them. -/
def RuleSet.counts (rules : RuleSet) : String :=
  toString rules.sources.size ++ " sources, " ++ toString rules.sinks.size ++ " sinks, " ++
    toString rules.sanitizers.size ++ " sanitizers"

/-- Load the rules of a directory. The files are read one after the other, so
that a refused file keeps the later ones from being looked for. -/
def RuleSet.load (directory : RuleDirectory) : Loading RuleSet := do
  let sources ← orRefuse (sourcesOf (← contentOf directory.sources))
  let sinks ← orRefuse (sinksOf (← contentOf directory.sinks))
  let (sanitizers, reverses) ← orRefuse (sanitizersOf (← contentOf directory.sanitizers))
  let rules : RuleSet := ⟨sources, sinks, sanitizers, reverses⟩
  note .debug ("Loaded " ++ rules.counts ++ " from " ++ directory.path)
  return rules

end PhpTaint.Rules
