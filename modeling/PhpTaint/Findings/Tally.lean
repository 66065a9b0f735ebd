import PhpTaint.Fault
import PhpTaint.Findings.Basic
import PhpTaint.Text.Case

/-!
# Counting findings

A tally holds the counts of a report under their field names. A finding is
counted in the field that its severity spells, in any letter case; severities
that spell no field count as low. Since severities are not checked, one can
spell any field of the report, and then that count goes up; the one field that
is not a count cannot.
-/

namespace PhpTaint.Findings

open Json (Value)

/-- The counts of a report. -/
structure Tally where
  totalFiles : Int
  totalFindings : Int
  critical : Int
  high : Int
  medium : Int
  /-- The number of findings of low or other severity. -/
  low : Int
  deriving DecidableEq, Repr

/-- The severities of a report, the worst first. -/
def severityOrder : List String := ["CRITICAL", "HIGH", "MEDIUM", "LOW"]

/-- The tally before any finding is counted. -/
def Tally.start (totalFiles totalFindings : Int) : Tally := ⟨totalFiles, totalFindings, 0, 0, 0, 0⟩

/-- Count one finding of the given severity. -/
def Tally.count (tally : Tally) (severity : String) : Except Fault Tally :=
  match Text.lower severity with
  | "total_files" => .ok { tally with totalFiles := tally.totalFiles + 1 }
  | "total_findings" => .ok { tally with totalFindings := tally.totalFindings + 1 }
  | "critical" => .ok { tally with critical := tally.critical + 1 }
  | "high" => .ok { tally with high := tally.high + 1 }
  | "medium" => .ok { tally with medium := tally.medium + 1 }
  | "findings" => .error .illTyped
  | _ => .ok { tally with low := tally.low + 1 }

/-- Count a finding by the severity that the rules give; it has to be a text. -/
def Tally.countFinding (tally : Tally) (finding : Finding) : Except Fault Tally :=
  match finding.severity with
  | .text severity => tally.count severity
  | _ => .error .missingOperation

/-- The tally of some findings. -/
def tallyOf (findings : List Finding) (totalFiles : Int) : Except Fault Tally :=
  findings.foldlM Tally.countFinding (Tally.start totalFiles (Int.ofNat findings.length))

/-- The count that a severity of the report shows. -/
def Tally.shown (tally : Tally) (severity : String) : Int :=
  match severity with
  | "CRITICAL" => tally.critical
  | "HIGH" => tally.high
  | "MEDIUM" => tally.medium
  | _ => tally.low

/-- The counts and the entries as fields of a report. -/
def summaryFields (tally : Tally) (entries : List Entry) : List (String × Value) := [
  ("total_files", .int tally.totalFiles),
  ("total_findings", .int tally.totalFindings),
  ("critical", .int tally.critical),
  ("high", .int tally.high),
  ("medium", .int tally.medium),
  ("low", .int tally.low),
  ("findings", .list (entries.map Entry.toValue))]

end PhpTaint.Findings
