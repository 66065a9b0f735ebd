import PhpTaint.Json.Writer
import PhpTaint.Reports.Basic
import PhpTaint.Reports.Sheet
import PhpTaint.Table

/-!
# Text reports

The text report of a run shows the counts, then the findings by severity, then
the files that were skipped. Only severities of the report have a section, so
that a finding of any other severity is counted but not shown.
-/

namespace PhpTaint.Reports

open Findings (Entry severityOrder)
open Json (Scalar Value)

/-- Count one more occurrence. Equal keys are counted together, under the first
of them. -/
def countKey (counts : Table Scalar (Scalar × Nat)) (key : Scalar) : Table Scalar (Scalar × Nat) :=
  let (first, count) := (counts.find? key.normal).getD (key, 0)
  counts.insert key.normal (first, count + 1)

/-- How often each key occurs, in order of first occurrence. -/
def keyCounts (keys : List Scalar) : List (Scalar × Nat) := (keys.foldl countKey ∅).values

/-- The number of vulnerabilities that a report lists. -/
def typeLimit : Nat := 10

/-- The most frequent keys, the earlier one first where the counts agree. -/
def frequentKeys (keys : List Scalar) : List (String × Nat) :=
  (((keyCounts keys).mergeSort fun left right => decide (right.2 <= left.2)).take typeLimit).map
    fun entry => ((Value.scalar entry.1).plain, entry.2)

/-- The number of characters of code that the text report shows. -/
def snippetLimit : Nat := 60

/-- The beginning of some code on one line. -/
def snippet (code : String) : String :=
  String.ofList ((code.toList.take snippetLimit).map fun char => if char = '\n' then ' ' else char)

/-- The weakness identifier as it is shown. -/
def weaknessText (cwe : Value) : String := if cwe.isPresent then cwe.plain else "no CWE"

/-- Names as a listing. -/
def nameListing (names : List String) : String := String.intercalate ", " names

/-- A finding as a card. -/
def entryCard (verbose : Bool) (entry : Entry) : Card where
  vulnerability := (Value.scalar entry.vulnerability).plain
  sink := entry.sink
  weakness := weaknessText entry.cwe
  file := entry.file
  line := toString entry.line
  level := entry.level
  confidence := entry.confidence
  sanitizers := if entry.sanitizers.isEmpty then none else some (nameListing entry.sanitizers)
  code := if verbose && !entry.code.isEmpty then some (snippet entry.code) else none

/-- The findings of one severity. -/
def entryGroup (verbose : Bool) (entries : List Entry) (severity : String) : SeverityGroup where
  severity := severity
  cards := (entries.filter fun entry => entry.severity.isText severity).map (entryCard verbose)

/-- The findings of a report. -/
def entryDetails (verbose : Bool) (entries : List Entry) : Details :=
  let types := entries.map Entry.vulnerability
  { variety := (keyCounts types).length
    frequent := frequentKeys types
    groups := severityOrder.map (entryGroup verbose entries) }

/-- The duration, when there is one. -/
def durationText (seconds : Value) : Option String :=
  if seconds.isPresent then some seconds.plain else none

/-- The sheet of a report. -/
def Report.sheet (verbose : Bool) (report : Report) : Sheet where
  target := report.target
  files := toString report.tally.totalFiles
  findings := toString report.tally.totalFindings
  seconds := durationText (.scalar report.seconds)
  counts := severityOrder.map fun severity => (severity, toString (report.tally.shown severity))
  details :=
    if 0 < report.tally.totalFindings then some (entryDetails verbose report.entries) else none
  errors := report.errors

/-- The lines of a text report. -/
def Report.lines (style : Style) (verbose : Bool) (report : Report) : List String :=
  (report.sheet verbose).lines style

/-- A text report. -/
def Report.text (style : Style) (verbose : Bool) (report : Report) : String :=
  (report.sheet verbose).text style

end PhpTaint.Reports
