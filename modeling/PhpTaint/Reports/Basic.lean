import PhpTaint.Findings.Tally

/-!
# Reports

A report is the outcome of one run: the counts, the entries of the findings, the
files that were skipped, and when and where the run took place. `Report.toValue`
is the report as data.
-/

namespace PhpTaint.Reports

open Findings (Entry Tally)
open Json (Scalar Value)

/-- The outcome of one run. -/
structure Report where
  tally : Tally
  entries : List Entry
  date : String
  target : String
  seconds : Scalar
  /-- The skipped files with the reasons. -/
  errors : List (String × String)
  deriving Repr

/-- A skipped file as data. -/
def errorValue (error : String × String) : Value := Value.texts [error.1, error.2]

/-- The fields of a report as data. -/
def Report.fields (report : Report) : List (String × Value) :=
  Findings.summaryFields report.tally report.entries ++ [
    ("scan_date", .text report.date),
    ("target", .text report.target),
    ("scan_time_seconds", .scalar report.seconds),
    ("errors", .list (report.errors.map errorValue))]

/-- A report as data. -/
def Report.toValue (report : Report) : Value := .object report.fields

end PhpTaint.Reports
