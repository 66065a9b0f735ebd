import PhpTaint.Json.Value
import PhpTaint.Taint.Level
import PhpTaint.Text.Affix

/-!
# Findings

A finding says that untrusted input, or input of unknown origin, may reach a
sink. An `Entry` is a finding as a report shows it.
-/

namespace PhpTaint.Findings

open Json (Scalar Value)

/-- How sure a finding is. -/
inductive Confidence where
  /-- Untrusted input arrives without any protection. -/
  | high
  /-- The input is of unknown origin or weakly protected. -/
  | low
  deriving DecidableEq, Repr

/-- The word for a confidence. -/
def Confidence.label : Confidence -> String
  | .high => "HIGH"
  | .low => "LOW"

/-- A sink argument that may carry untrusted input. -/
structure Finding where
  file : String
  line : Nat
  sink : String
  vulnerability : Scalar
  severity : Value
  /-- The taint of the reported leaves. -/
  level : Level
  code : String
  cwe : Value
  /-- The sanitizers met on the way. -/
  sanitizers : List String
  confidence : Confidence
  deriving Repr

/-- A finding as a report shows it. -/
structure Entry where
  vulnerability : Scalar
  severity : Value
  file : String
  line : Int
  sink : String
  cwe : Value
  level : String
  sanitizers : List String
  confidence : String
  /-- The beginning of the code of the sink. -/
  code : String
  deriving Repr

/-- The number of characters of code that a report shows. -/
def codeLimit : Nat := 100

/-- The entry of a finding. -/
def Finding.entry (finding : Finding) : Entry where
  vulnerability := finding.vulnerability
  severity := finding.severity
  file := finding.file
  line := Int.ofNat finding.line
  sink := finding.sink
  cwe := finding.cwe
  level := finding.level.label
  sanitizers := finding.sanitizers
  confidence := finding.confidence.label
  code := Text.takeChars codeLimit finding.code

/-- The fields of an entry as data. -/
def Entry.fields (entry : Entry) : List (String × Value) := [
  ("type", .scalar entry.vulnerability),
  ("severity", entry.severity),
  ("file", .text entry.file),
  ("line", .int entry.line),
  ("sink", .text entry.sink),
  ("cwe", entry.cwe),
  ("taint", .text entry.level),
  ("sanitizers", Value.texts entry.sanitizers),
  ("confidence", .text entry.confidence),
  ("code", .text entry.code)]

/-- An entry as data. -/
def Entry.toValue (entry : Entry) : Value := .object entry.fields

end PhpTaint.Findings
