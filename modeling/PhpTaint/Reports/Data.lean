import PhpTaint.Json.Access
import PhpTaint.Reports.Text

/-!
# Text reports from data

A report that was kept as data can be shown again. Such data promises nothing,
so every part of it is asked for when it is due, in the order in which a report
shows it, and the first part that is not there or not what it should be is the
fault. What is only shown may be any value.
-/

namespace PhpTaint.Reports

open Findings (Entry severityOrder)
open Json

/-- The fields of a mapping. -/
abbrev Fields := List (String × Value)

/-- A field as it is shown. -/
def shownField (fields : Fields) (name : String) : Except Fault String :=
  (requireField fields name).map Value.plain

/-- The listing of the sanitizers of a finding, if there are any. -/
def sanitizerListing (sanitizers : Value) : Except Fault (Option String) :=
  if sanitizers.isPresent then (requireTexts sanitizers).map fun names => some (nameListing names)
  else .ok none

/-- The beginning of the code of a finding. A sequence has a beginning, too, but
that is no code. -/
def codeSnippet (code : Value) : Except Fault (Option String) :=
  if code.isPresent then
    match code with
    | .text text => .ok (some (snippet text))
    | .list _ => .error .missingOperation
    | _ => .error .illTyped
  else .ok none

/-- The code that is shown of a finding. -/
def shownCode (verbose : Bool) (fields : Fields) : Except Fault (Option String) :=
  if verbose then codeSnippet (Value.fieldD fields "code" .null) else .ok none

/-- The card of a finding. -/
def cardOf (verbose : Bool) (fields : Fields) : Except Fault Card := do
  let vulnerability ← shownField fields "type"
  let sink ← shownField fields "sink"
  let cwe ← requireField fields "cwe"
  let file ← shownField fields "file"
  let line ← shownField fields "line"
  let level ← shownField fields "taint"
  let confidence ← shownField fields "confidence"
  let sanitizers ← sanitizerListing (← requireField fields "sanitizers")
  let code ← shownCode verbose fields
  return {
    vulnerability := vulnerability
    sink := sink
    weakness := weaknessText cwe
    file := file
    line := line
    level := level
    confidence := confidence
    sanitizers := sanitizers
    code := code }

/-- The key by which a finding is counted, and its fields. -/
def countedFinding (finding : Value) : Except Fault (Scalar × Fields) := do
  let fields ← requireFields finding
  let key ← requireScalar (← requireField fields "type")
  return (key, fields)

/-- The fields of a finding with its severity. -/
def gradedFinding (finding : Scalar × Fields) : Except Fault (Value × Fields) := do
  let severity ← requireField finding.2 "severity"
  return (severity, finding.2)

/-- The findings of one severity. -/
def groupOf (verbose : Bool) (findings : List (Value × Fields)) (severity : String) :
    Except Fault SeverityGroup := do
  let chosen := findings.filter fun finding => finding.1.isText severity
  let cards ← chosen.mapM fun finding => cardOf verbose finding.2
  return { severity := severity, cards := cards }

/-- The findings of a report. -/
def detailsOf (verbose : Bool) (findings : Value) : Except Fault Details := do
  let counted ← (← requireParts findings).mapM countedFinding
  let types := counted.map Prod.fst
  let graded ← counted.mapM gradedFinding
  let groups ← severityOrder.mapM (groupOf verbose graded)
  return { variety := (keyCounts types).length, frequent := frequentKeys types, groups := groups }

/-- The skipped files of a report. -/
def skippedOf (errors : Value) : Except Fault (List (String × String)) :=
  if errors.isPresent then do
    let pairs ← (← requireParts errors).mapM requirePair
    return pairs.map fun pair => (pair.1.plain, pair.2.plain)
  else .ok []

/-- The findings of a report that counts them. -/
def shownDetails (verbose : Bool) (fields : Fields) (total : Value) :
    Except Fault (Option Details) := do
  if ← requirePositive total then
    let details ← detailsOf verbose (← requireField fields "findings")
    return some details
  else return none

/-- The field that counts the findings of a severity. -/
def countField (severity : String) : String := Text.lower severity

/-- The count of a severity. -/
def countOf (fields : Fields) (severity : String) : Except Fault (String × String) := do
  let count ← shownField fields (countField severity)
  return (severity, count)

/-- The sheet of a report that is given as data. -/
def Sheet.ofValue (verbose : Bool) (report : Value) : Except Fault Sheet := do
  let fields ← requireFields report
  let target ← shownField fields "target"
  let files ← shownField fields "total_files"
  let total ← requireField fields "total_findings"
  let counts ← severityOrder.mapM (countOf fields)
  let details ← shownDetails verbose fields total
  let errors ← skippedOf (Value.fieldD fields "errors" .null)
  return {
    target := target
    files := files
    findings := total.plain
    seconds := durationText (Value.fieldD fields "scan_time_seconds" .null)
    counts := counts
    details := details
    errors := errors }

/-- A step that succeeds on every item succeeds on all of them. -/
theorem mapM_eq_ok {α β : Type} {step : α -> Except Fault β} {result : α -> β} {items : List α}
    (each : ∀ item ∈ items, step item = .ok (result item)) :
    items.mapM step = .ok (items.map result) := by
  induction items with
  | nil => rfl
  | cons item rest inductionHypothesis =>
      rw [List.mapM_cons, each item (by simp),
        inductionHypothesis fun other member => each other (by simp [member])]
      rfl

/-- The texts of a sequence of texts. -/
theorem requireTexts_texts (names : List String) : requireTexts (Value.texts names) = .ok names := by
  show (names.map Value.text).mapM _ = Except.ok names
  induction names with
  | nil => rfl
  | cons name rest inductionHypothesis =>
      rw [List.map_cons, List.mapM_cons, inductionHypothesis]
      rfl

/-- The listing of sanitizers is that of the names. -/
theorem sanitizerListing_texts (names : List String) :
    sanitizerListing (Value.texts names) =
      .ok (if names.isEmpty then none else some (nameListing names)) := by
  cases names with
  | nil => rfl
  | cons name rest =>
      have present : (Value.texts (name :: rest)).isPresent = true := by
        simp [Value.texts, Value.isPresent]
      rw [sanitizerListing, if_pos present, requireTexts_texts]
      rfl

/-- The card of an entry that was kept as data. -/
theorem cardOf_fields (verbose : Bool) (entry : Entry) :
    cardOf verbose entry.fields = .ok (entryCard verbose entry) := by
  have code : shownCode verbose entry.fields =
      .ok (if verbose && !entry.code.isEmpty then some (snippet entry.code) else none) := by
    have field : Value.fieldD entry.fields "code" .null = .text entry.code := rfl
    rw [shownCode, field]
    cases verbose with
    | false => rfl
    | true =>
        by_cases blank : entry.code.isEmpty = true
        · simp [codeSnippet, Value.isPresent, blank]
        · simp [codeSnippet, Value.isPresent, blank]
  have listing : requireField entry.fields "sanitizers" = .ok (Value.texts entry.sanitizers) := rfl
  unfold cardOf
  simp only [code, listing, bind, Except.bind, sanitizerListing_texts]
  rfl

/-- The findings of entries that were kept as data. -/
theorem detailsOf_entries (verbose : Bool) (entries : List Entry) :
    detailsOf verbose (.list (entries.map Entry.toValue)) = .ok (entryDetails verbose entries) := by
  have counted : (entries.map Entry.toValue).mapM countedFinding =
      .ok (entries.map fun entry => (entry.vulnerability, entry.fields)) := by
    rw [List.mapM_map]
    exact mapM_eq_ok fun _ _ => rfl
  have graded : (entries.map fun entry => (entry.vulnerability, entry.fields)).mapM
      gradedFinding = .ok (entries.map fun entry => (entry.severity, entry.fields)) := by
    rw [List.mapM_map]
    exact mapM_eq_ok fun _ _ => rfl
  have groups : severityOrder.mapM
      (groupOf verbose (entries.map fun entry => (entry.severity, entry.fields))) =
        .ok (severityOrder.map (entryGroup verbose entries)) := by
    refine mapM_eq_ok fun severity _ => ?_
    have cards : ((entries.map fun entry => (entry.severity, entry.fields)).filter
        fun finding => finding.1.isText severity).mapM (fun finding => cardOf verbose finding.2) =
          .ok (entryGroup verbose entries severity).cards := by
      rw [List.filter_map, List.mapM_map]
      exact mapM_eq_ok fun entry _ => cardOf_fields verbose entry
    simp only [groupOf, cards]
    rfl
  have parts : requireParts (.list (entries.map Entry.toValue)) =
      .ok (entries.map Entry.toValue) := rfl
  have types : (entries.map fun entry => (entry.vulnerability, entry.fields)).map
      Prod.fst = entries.map Entry.vulnerability := by
    simp
  unfold detailsOf
  simp only [parts, counted, graded, groups, types, bind, Except.bind]
  rfl

/-- The skipped files of a report that was kept as data. -/
theorem skippedOf_errors (errors : List (String × String)) :
    skippedOf (.list (errors.map errorValue)) = .ok errors := by
  have pairs : (errors.map errorValue).mapM requirePair =
      .ok (errors.map fun error => (Value.text error.1, Value.text error.2)) := by
    rw [List.mapM_map]
    exact mapM_eq_ok fun _ _ => rfl
  have parts : requireParts (.list (errors.map errorValue)) = .ok (errors.map errorValue) := rfl
  cases errors with
  | nil => rfl
  | cons error rest =>
      have present : (Value.list ((error :: rest).map errorValue)).isPresent = true := rfl
      rw [skippedOf, if_pos present]
      simp only [parts, pairs, bind, Except.bind, pure, Except.pure, List.map_map]
      rw [show (fun pair : Value × Value => (pair.1.plain, pair.2.plain)) ∘
        (fun error : String × String => (Value.text error.1, Value.text error.2)) = id from rfl,
        List.map_id]

/-- The fields of a report as data. -/
theorem requireFields_toValue (report : Report) :
    requireFields report.toValue = .ok report.fields := rfl

/-- A report that was kept as data is shown as the report itself. -/
theorem Sheet.ofValue_toValue (verbose : Bool) (report : Report) :
    Sheet.ofValue verbose report.toValue = .ok (report.sheet verbose) := by
  have counts : severityOrder.mapM (countOf report.fields) =
      .ok (severityOrder.map fun severity =>
        (severity, toString (report.tally.shown severity))) := by
    refine mapM_eq_ok fun severity member => ?_
    simp only [severityOrder, List.mem_cons, List.not_mem_nil, or_false] at member
    rcases member with same | same | same | same <;> subst same <;> rfl
  have details : shownDetails verbose report.fields (.int report.tally.totalFindings) =
      .ok (report.sheet verbose).details := by
    have found : requireField report.fields "findings" =
        .ok (.list (report.entries.map Entry.toValue)) := rfl
    by_cases positive : 0 < report.tally.totalFindings
    · simp [shownDetails, requirePositive, positive, found, detailsOf_entries, Report.sheet, bind,
        Except.bind, pure, Except.pure]
    · simp [shownDetails, requirePositive, positive, Report.sheet, bind, Except.bind, pure,
        Except.pure]
  have errors : skippedOf (Value.fieldD report.fields "errors" .null) = .ok report.errors :=
    skippedOf_errors report.errors
  have total : requireField report.fields "total_findings" =
      .ok (.int report.tally.totalFindings) := rfl
  unfold Sheet.ofValue
  simp only [requireFields_toValue, counts, total, details, errors, bind, Except.bind]
  rfl

end PhpTaint.Reports
