import PhpTaint.Proofs.Findings.Counting
import PhpTaint.Reports.Data

/-!
# What a report accounts for

A report counts its findings by severity and prints a block for each of them in the
section of its severity. Counting folds letter case and takes every other severity for
low; a section has the findings of exactly its severity. So the counts may add up where
blocks are missing, and a report accounts for all its findings only if every severity is
on its scale.
-/

namespace PhpTaint.Findings

open Json (Value)

/-- Whether a severity is one of those of a report, exactly as it is spelled there. -/
def OnScale (severity : Value) : Prop := ∃ text ∈ severityOrder, severity = .text text

/-- The findings of exactly the given severity. -/
def ofSeverity (findings : List Finding) (severity : String) : List Finding :=
  findings.filter fun finding => finding.severity.isText severity

variable {findings : List Finding} {files : Int} {tally : Tally}

theorem isText_iff {severity : Value} {text : String} :
    severity.isText text = true ↔ severity = .text text := by
  unfold Value.isText
  split
  · simp
  · rename_i other
    simpa using other text

/-- Grouping findings by distinct severities lists each finding of one of these once,
and no other. -/
theorem flatMap_ofSeverity_perm {severities : List String} (distinct : severities.Nodup) :
    (severities.flatMap (ofSeverity findings)).Perm
      (findings.filter fun finding => severities.any finding.severity.isText) := by
  induction severities with
  | nil => simp
  | cons severity rest inductionHypothesis =>
      obtain ⟨fresh, others⟩ := List.nodup_cons.1 distinct
      -- The findings of the first severity come first, the others keep their order.
      have parts := List.filter_append_perm
        (fun finding : Finding => finding.severity.isText severity)
        (findings.filter fun finding => (severity :: rest).any finding.severity.isText)
      rw [List.filter_filter, List.filter_filter] at parts
      have here : ofSeverity findings severity = findings.filter fun finding =>
          finding.severity.isText severity &&
            (severity :: rest).any finding.severity.isText := by
        refine List.filter_congr fun finding _ => ?_
        cases own : finding.severity.isText severity <;> simp [own]
      have later : (findings.filter fun finding => rest.any finding.severity.isText) =
          findings.filter fun finding => !finding.severity.isText severity &&
            (severity :: rest).any finding.severity.isText := by
        refine List.filter_congr fun finding _ => ?_
        cases own : finding.severity.isText severity with
        | false => simp [own]
        | true =>
            rw [isText_iff.1 own, Bool.not_true, Bool.false_and, List.any_eq_false]
            intro other listed same
            cases isText_iff.1 same
            exact fresh listed
      rw [List.flatMap_cons, here]
      exact ((later ▸ inductionHypothesis others).append_left _).trans parts

theorem onScale_iff {severity : Value} :
    OnScale severity ↔ severityOrder.any severity.isText = true := by
  simp only [OnScale, List.any_eq_true, isText_iff]

/-- Grouping findings by the severities of a report lists all of them exactly if every
severity is on the scale. -/
theorem length_flatMap_ofSeverity_iff :
    (severityOrder.flatMap (ofSeverity findings)).length = findings.length ↔
      ∀ finding ∈ findings, OnScale finding.severity := by
  have distinct : severityOrder.Nodup := by decide
  rw [(flatMap_ofSeverity_perm distinct).length_eq, List.length_filter_eq_length_iff]
  simp only [onScale_iff]

/-- Where all severities are on the scale, a report shows for each severity the number
of its findings. -/
theorem shown_of_tallyOf (counted : tallyOf findings files = .ok tally)
    (graded : ∀ finding ∈ findings, OnScale finding.severity) {severity : String}
    (listed : severity ∈ severityOrder) :
    tally.shown severity = (ofSeverity findings severity).length := by
  obtain ⟨column, own, shown, zero⟩ := tally.shown_eq listed
  have same : countedIn findings column = (ofSeverity findings severity).length := by
    rw [countedIn, ofSeverity, ← List.countP_eq_length_filter]
    refine List.countP_congr fun finding member => ?_
    obtain ⟨text, onScale, spelled⟩ := graded finding member
    rw [decide_eq_true_iff, isText_iff, spelled, ← own]
    constructor
    · intro equal
      rw [columnOf?_injective severity listed text onScale equal]
    · intro equal
      rw [equal]
  rw [shown, inColumn_foldlM_countFinding counted column, zero, same, Int.zero_add]

/-- No severity of the scale spells another field of a report. -/
theorem isGrade_of_onScale {severity : Value} (onScale : OnScale severity) :
    isGrade severity = true := by
  have grades : ∀ text ∈ severityOrder, isGrade (.text text) = true := by decide
  obtain ⟨text, listed, rfl⟩ := onScale
  exact grades text listed

end PhpTaint.Findings

namespace PhpTaint.Reports

open Findings Json

/-- The block of a finding. -/
def blockOf (verbose : Bool) (finding : Finding) : Card := entryCard verbose finding.entry

/-- The section of a severity, with a block for each of its findings. -/
def sectionOf (verbose : Bool) (findings : List Finding) (severity : String) : SeverityGroup where
  severity := severity
  cards := (ofSeverity findings severity).map (blockOf verbose)

/-- The sections of a sheet. -/
def Sheet.sections (sheet : Sheet) : List SeverityGroup :=
  (sheet.details.map Details.groups).getD []

/-- The lines of the details before the sections. -/
def Details.preface (style : Style) (details : Details) : List String :=
  details.typeLines ++ ["", rule '-', style.paint .bold "FINDINGS", rule '-']

variable {findings : List Finding} {files : Int} {tally : Tally}

/-- A report on some findings, all else being that of another report. -/
def Report.about (frame : Report) (findings : List Finding) (tally : Tally) : Report :=
  { frame with tally := tally, entries := findings.map Finding.entry }

/-- A report accounts for some findings: its counts add up to their number, it prints
one block for each of them, in sections that follow the order of severities, and every
section has as many blocks as its severity counts. -/
structure Report.AccountsFor (report : Report) (verbose : Bool) (findings : List Finding) :
    Prop where
  balances : report.tally.Balances findings.length
  blocks : ((report.sheet verbose).sections.flatMap SeverityGroup.cards).Perm
    (findings.map (blockOf verbose))
  ordered : ((report.sheet verbose).sections.map SeverityGroup.severity).Sublist severityOrder
  headings : ∀ group ∈ (report.sheet verbose).sections,
    (group.cards.length : Int) = report.tally.shown group.severity

/-- The total of a tally is positive exactly if there are findings. -/
theorem totalFindings_pos (counted : tallyOf findings files = .ok tally) :
    0 < tally.totalFindings ↔ findings ≠ [] := by
  have total := (tallyOf_sums counted).1
  cases findings with
  | nil =>
      simp only [countedIn, List.length_nil, List.countP_nil] at total
      simp [total]
  | cons finding rest =>
      rw [List.length_cons] at total
      simp only [ne_eq, reduceCtorEq, not_false_eq_true, iff_true]
      omega

/-- If there are findings, a report has a section for each severity. -/
theorem Report.sections_about (frame : Report) (verbose : Bool)
    (counted : tallyOf findings files = .ok tally) :
    ((frame.about findings tally).sheet verbose).sections =
      if findings.isEmpty then [] else severityOrder.map (sectionOf verbose findings) := by
  have group : ∀ severity, entryGroup verbose (findings.map Finding.entry) severity =
      sectionOf verbose findings severity := by
    intro severity
    rw [entryGroup, List.filter_map, List.map_map]
    rfl
  unfold Sheet.sections Report.sheet about
  dsimp only
  by_cases none : findings = []
  · rw [if_neg (by rw [totalFindings_pos counted, not_not]; exact none), none]
    rfl
  · rw [if_pos ((totalFindings_pos counted).2 none), if_neg (by simpa using none)]
    exact List.map_congr_left fun severity _ => group severity

/-- The blocks of a report are those of the findings of its severities. -/
theorem Report.blocks_about (frame : Report) (verbose : Bool)
    (counted : tallyOf findings files = .ok tally) :
    ((frame.about findings tally).sheet verbose).sections.flatMap SeverityGroup.cards =
      (severityOrder.flatMap (ofSeverity findings)).map (blockOf verbose) := by
  rw [frame.sections_about verbose counted, List.map_flatMap]
  cases findings with
  | nil => rfl
  | cons finding rest =>
      rw [List.isEmpty_cons, if_neg Bool.false_ne_true, List.flatMap_map]
      rfl

/-- A sheet prints its sections between the overview and the skipped files. -/
theorem Sheet.lines_eq (style : Style) (sheet : Sheet) :
    sheet.lines style =
      sheet.countLines style ++ (sheet.details.map (Details.preface style)).getD [] ++
        sheet.sections.flatMap (SeverityGroup.lines style) ++ sheet.errorLines := by
  unfold lines sections
  cases sheet.details with
  | none => simp
  | some details => simp [Details.lines, Details.preface]

/-- Findings on the scale are accounted for. -/
theorem Report.accountsFor_about (frame : Report) (verbose : Bool)
    (counted : tallyOf findings files = .ok tally) (balances : tally.Balances findings.length)
    (graded : ∀ finding ∈ findings, OnScale finding.severity) :
    (frame.about findings tally).AccountsFor verbose findings where
  balances := balances
  blocks := by
    have distinct : severityOrder.Nodup := by decide
    have all : (findings.filter fun finding => severityOrder.any finding.severity.isText) =
        findings :=
      List.filter_eq_self.2 fun finding member => onScale_iff.1 (graded finding member)
    rw [frame.blocks_about verbose counted]
    exact (all ▸ flatMap_ofSeverity_perm distinct).map _
  ordered := by
    rw [frame.sections_about verbose counted]
    split
    · exact List.nil_sublist _
    · rw [List.map_map, show SeverityGroup.severity ∘ sectionOf verbose findings = id from rfl,
        List.map_id]
  headings := by
    intro group member
    rw [frame.sections_about verbose counted] at member
    split at member
    · cases member
    · obtain ⟨severity, listed, rfl⟩ := List.mem_map.1 member
      rw [sectionOf, List.length_map]
      exact (shown_of_tallyOf counted graded listed).symm

/-- What a report keeps of its findings. They can be counted if every severity has a
column, and the counts add up to their number exactly if every severity is a text that
spells no other field. What is counted can be printed: for each severity, in their
order, a section of the findings of exactly this severity. So a report accounts for all
findings, with one block for each and as many blocks in every section as are counted,
exactly if every severity is on the scale. -/
theorem report_accounts_iff_on_scale (findings : List Finding) (files : Int) (frame : Report)
    (style : Style) (verbose : Bool) :
    ((∃ tally, tallyOf findings files = .ok tally) ↔
      ∀ finding ∈ findings, (columnOf? finding.severity).isSome = true) ∧
    ((∃ tally, tallyOf findings files = .ok tally ∧ tally.Balances findings.length) ↔
      ∀ finding ∈ findings, isGrade finding.severity = true) ∧
    (∀ tally, tallyOf findings files = .ok tally ->
      let report := frame.about findings tally
      let sheet := report.sheet verbose
      Sheet.ofValue verbose report.toValue = .ok sheet ∧
        report.lines style verbose =
          sheet.countLines style ++ (sheet.details.map (Details.preface style)).getD [] ++
            sheet.sections.flatMap (SeverityGroup.lines style) ++ sheet.errorLines ∧
        sheet.sections =
          if findings.isEmpty then [] else severityOrder.map (sectionOf verbose findings)) ∧
    ((∃ tally, tallyOf findings files = .ok tally ∧
        (frame.about findings tally).AccountsFor verbose findings) ↔
      ∀ finding ∈ findings, OnScale finding.severity) := by
  refine ⟨exists_foldlM_countFinding_iff, tallyOf_balances_iff findings files,
    fun tally counted => ⟨Sheet.ofValue_toValue verbose _, Sheet.lines_eq style _,
      frame.sections_about verbose counted⟩, ?_⟩
  constructor
  · rintro ⟨tally, counted, accounts⟩
    have blocks := accounts.blocks.length_eq
    rw [frame.blocks_about verbose counted, List.length_map, List.length_map] at blocks
    exact length_flatMap_ofSeverity_iff.1 blocks
  · intro graded
    obtain ⟨tally, counted, balances⟩ := (tallyOf_balances_iff findings files).2
      fun finding member => isGrade_of_onScale (graded finding member)
    exact ⟨tally, counted, frame.accountsFor_about verbose counted balances graded⟩

/-- The finding `echo $_GET;` with the given severity. -/
def echoFinding (severity : String) : Finding where
  file := "echo.php"
  line := 1
  sink := "echo"
  vulnerability := .text "XSS"
  severity := .text severity
  level := .tainted
  code := "echo $_GET;"
  cwe := .text "CWE-79"
  sanitizers := []
  confidence := .high

/-- A report on nothing. -/
def emptyReport : Report := ⟨Tally.start 0 0, [], "", "echo.php", .int 0, []⟩

/-- The worst and the least severity are counted and printed. -/
theorem report_accounts_iff_on_scale_extremes :
    (∀ finding ∈ [echoFinding "LOW", echoFinding "CRITICAL"], OnScale finding.severity) ∧
      tallyOf [echoFinding "LOW", echoFinding "CRITICAL"] 1 = .ok ⟨1, 2, 1, 0, 0, 1⟩ ∧
      (emptyReport.about [echoFinding "LOW", echoFinding "CRITICAL"]
        ⟨1, 2, 1, 0, 0, 1⟩).AccountsFor true [echoFinding "LOW", echoFinding "CRITICAL"] := by
  have graded : ∀ finding ∈ [echoFinding "LOW", echoFinding "CRITICAL"],
      OnScale finding.severity := by
    intro finding member
    simp only [List.mem_cons, List.not_mem_nil, or_false] at member
    rcases member with rfl | rfl
    · exact ⟨"LOW", by decide, rfl⟩
    · exact ⟨"CRITICAL", by decide, rfl⟩
  have counts : tallyOf [echoFinding "LOW", echoFinding "CRITICAL"] 1 =
      .ok ⟨1, 2, 1, 0, 0, 1⟩ := rfl
  obtain ⟨tally, counted, accounts⟩ := (report_accounts_iff_on_scale
    [echoFinding "LOW", echoFinding "CRITICAL"] 1 emptyReport ⟨false⟩ true).2.2.2.2 graded
  rw [counts] at counted
  cases counted
  exact ⟨graded, counts, accounts⟩

/-- Of two findings, one spells its severity in small letters and one spells the total
as its severity. The report counts three findings in all and one by severity, and prints
no block. A severity that spells the list of findings cannot be counted at all. -/
theorem report_misses_misspelled_severity :
    tallyOf [echoFinding "high", echoFinding "total_findings"] 1 = .ok ⟨1, 3, 0, 1, 0, 0⟩ ∧
      ((emptyReport.about [echoFinding "high", echoFinding "total_findings"]
        ⟨1, 3, 0, 1, 0, 0⟩).sheet true).sections.flatMap SeverityGroup.cards = [] ∧
      tallyOf [echoFinding "findings"] 1 = .error .illTyped ∧
      ¬ ∃ tally, tallyOf [echoFinding "high", echoFinding "total_findings"] 1 = .ok tally ∧
        (emptyReport.about [echoFinding "high", echoFinding "total_findings"] tally).AccountsFor
          true [echoFinding "high", echoFinding "total_findings"] := by
  refine ⟨rfl, by decide, rfl, ?_⟩
  rintro ⟨tally, counted, accounts⟩
  cases counted
  exact absurd accounts.balances.total (by decide)

end PhpTaint.Reports
