import PhpTaint.Reports.Style

/-!
# Sheets

A sheet is a text report before it is laid out: everything that the report shows,
already as text. Laying it out gives the list of its lines. The counts come
first, then the findings by severity, then the files that were skipped.
-/

namespace PhpTaint.Reports

/-- One finding on a sheet. -/
structure Card where
  vulnerability : String
  sink : String
  weakness : String
  file : String
  line : String
  level : String
  confidence : String
  /-- The sanitizers met on the way, if there are any. -/
  sanitizers : Option String
  /-- The beginning of the code, if it is shown. -/
  code : Option String
  deriving DecidableEq, Repr

/-- The findings of one severity on a sheet. -/
structure SeverityGroup where
  severity : String
  cards : List Card
  deriving DecidableEq, Repr

/-- What a sheet shows when there are findings. -/
structure Details where
  /-- How many different vulnerabilities occur. -/
  variety : Nat
  /-- The most frequent vulnerabilities with their counts. -/
  frequent : List (String × Nat)
  groups : List SeverityGroup
  deriving DecidableEq, Repr

/-- A text report before it is laid out. -/
structure Sheet where
  target : String
  files : String
  findings : String
  seconds : Option String
  /-- The severities with their counts. -/
  counts : List (String × String)
  /-- The findings, if there are any. -/
  details : Option Details
  /-- The skipped files with the reasons. -/
  errors : List (String × String)
  deriving DecidableEq, Repr

/-- A line that divides sections. -/
def rule (char : Char) : String := String.ofList (List.replicate 70 char)

/-- A line that is there if its content is. -/
def optionalLine (label : String) : Option String -> List String
  | some text => [label ++ text]
  | none => []

/-- The lines about one finding. -/
def Card.lines (card : Card) : List String :=
  ["", "  " ++ card.vulnerability ++ " via " ++ card.sink ++ " (" ++ card.weakness ++ ")",
    "    File: " ++ card.file ++ ":" ++ card.line,
    "    Taint: " ++ card.level ++ "  Confidence: " ++ card.confidence] ++
  optionalLine "    Sanitizers: " card.sanitizers ++ optionalLine "    Code: " card.code

/-- The section of one severity, when it has findings. -/
def SeverityGroup.lines (style : Style) (group : SeverityGroup) : List String :=
  if group.cards.isEmpty then []
  else
    ["", "[" ++ style.paint (severityPaint group.severity) group.severity ++ "] - " ++
      toString group.cards.length ++ " findings"] ++ group.cards.flatMap Card.lines

/-- The overview of vulnerabilities, when there is more than one. -/
def Details.typeLines (details : Details) : List String :=
  if 1 < details.variety then
    ["", "  Vulnerability Types:"] ++
      details.frequent.map fun entry => "    " ++ entry.1 ++ ": " ++ toString entry.2
  else []

/-- The findings by severity. -/
def Details.lines (style : Style) (details : Details) : List String :=
  details.typeLines ++ ["", rule '-', style.paint .bold "FINDINGS", rule '-'] ++
    details.groups.flatMap (SeverityGroup.lines style)

/-- The counts. -/
def Sheet.countLines (style : Style) (sheet : Sheet) : List String :=
  ["", rule '=', style.paint .bold "TAINT ANALYSIS RESULTS", rule '=',
    "", "Target: " ++ sheet.target,
    "Files scanned: " ++ sheet.files,
    "Total findings: " ++ style.paint .bold sheet.findings] ++
  optionalLine "Scan time: " (sheet.seconds.map (· ++ "s")) ++
  sheet.counts.map fun count =>
    "  " ++ style.paint (severityPaint count.1) count.1 ++ ": " ++ count.2

/-- The skipped files. -/
def Sheet.errorLines (sheet : Sheet) : List String :=
  if sheet.errors.isEmpty then []
  else ["", "  Files skipped:"] ++ sheet.errors.map fun error => "    " ++ error.1 ++ ": " ++ error.2

/-- The lines of a sheet. -/
def Sheet.lines (style : Style) (sheet : Sheet) : List String :=
  sheet.countLines style ++ ((sheet.details.map (Details.lines style)).getD []) ++ sheet.errorLines

/-- Lines as one text, each with its end. -/
def joinLines (lines : List String) : String := String.join (lines.map (· ++ "\n"))

/-- A sheet as one text. -/
def Sheet.text (style : Style) (sheet : Sheet) : String := joinLines (sheet.lines style)

end PhpTaint.Reports
