import Mathlib.Data.List.Basic
import PhpTaint.Findings.Tally

/-!
# What a tally counts

A finding is counted in the field that its severity spells in any letter case, and as
low if it spells none. `columnOf?` says in which column of a tally that is. What one
finding does to a tally follows from it, and what a tally counts in all follows from
that: every column holds the number of its findings, and the counts by severity add up
to the number of all findings unless a severity spells one of the other fields.
-/

namespace PhpTaint.Findings

open Json (Value)

/-- The counts of a tally. -/
inductive Column where
  /-- The number of files. -/
  | files
  /-- The number of findings. -/
  | findings
  /-- The number of critical findings. -/
  | critical
  /-- The number of findings of high severity. -/
  | high
  /-- The number of findings of medium severity. -/
  | medium
  /-- The number of findings of low or other severity. -/
  | low
  deriving DecidableEq, Repr

/-- The count in a column. -/
def Tally.inColumn (tally : Tally) : Column -> Int
  | .files => tally.totalFiles
  | .findings => tally.totalFindings
  | .critical => tally.critical
  | .high => tally.high
  | .medium => tally.medium
  | .low => tally.low

/-- The tally with one more in a column. -/
def Tally.raise (tally : Tally) : Column -> Tally
  | .files => { tally with totalFiles := tally.totalFiles + 1 }
  | .findings => { tally with totalFindings := tally.totalFindings + 1 }
  | .critical => { tally with critical := tally.critical + 1 }
  | .high => { tally with high := tally.high + 1 }
  | .medium => { tally with medium := tally.medium + 1 }
  | .low => { tally with low := tally.low + 1 }

/-- The column in which a finding of some severity is counted, if it can be counted. -/
def columnOf? : Value -> Option Column
  | .text severity =>
      match Text.lower severity with
      | "total_files" => some .files
      | "total_findings" => some .findings
      | "critical" => some .critical
      | "high" => some .high
      | "medium" => some .medium
      | "findings" => none
      | _ => some .low
  | _ => none

/-- The fields of a report that a severity can spell although they count no severity. -/
def otherFields : List String := ["total_files", "total_findings", "findings"]

/-- Whether a severity is a text that spells none of the other fields. -/
def isGrade : Value -> Bool
  | .text severity => !otherFields.contains (Text.lower severity)
  | _ => false

/-- The number of findings that are counted in a column. -/
def countedIn (findings : List Finding) (column : Column) : Nat :=
  findings.countP fun finding => columnOf? finding.severity = some column

/-- The counts of a tally by severity add up to its total, and that is the number of
findings. -/
structure Tally.Balances (tally : Tally) (number : Nat) : Prop where
  sum : tally.critical + tally.high + tally.medium + tally.low = tally.totalFindings
  total : tally.totalFindings = number

variable {findings : List Finding} {files : Int} {start after tally : Tally}

@[simp] theorem Tally.inColumn_raise (tally : Tally) (column other : Column) :
    (tally.raise column).inColumn other =
      tally.inColumn other + if column = other then 1 else 0 := by
  cases column <;> cases other <;> simp [raise, inColumn]

/-- A text raises the count in its column. -/
theorem Tally.count_eq (tally : Tally) (severity : String) :
    tally.count severity =
      match columnOf? (.text severity) with
      | some column => .ok (tally.raise column)
      | none => .error .illTyped := by
  simp only [count, columnOf?]
  generalize Text.lower severity = word
  split <;> simp_all [raise]

/-- A finding whose severity has a column raises the count there; any other one is a
fault. -/
theorem Tally.countFinding_spec (tally : Tally) (finding : Finding) :
    (∃ column, columnOf? finding.severity = some column ∧
      tally.countFinding finding = .ok (tally.raise column)) ∨
    (columnOf? finding.severity = none ∧ ∃ fault, tally.countFinding finding = .error fault) := by
  unfold countFinding
  split
  · rename_i severity graded
    rw [graded, count_eq]
    cases columnOf? (.text severity) with
    | none => exact Or.inr ⟨rfl, _, rfl⟩
    | some column => exact Or.inl ⟨column, rfl, rfl⟩
  · rename_i ungraded
    refine Or.inr ⟨?_, _, rfl⟩
    unfold columnOf?
    split
    · rename_i severity graded
      exact absurd graded (ungraded severity)
    · rfl

/-- A list of findings can be counted if each of them can. -/
theorem exists_foldlM_countFinding_iff :
    (∃ after, findings.foldlM Tally.countFinding start = .ok after) ↔
      ∀ finding ∈ findings, (columnOf? finding.severity).isSome = true := by
  induction findings generalizing start with
  | nil => simp [pure, Except.pure]
  | cons finding rest inductionHypothesis =>
      rw [List.forall_mem_cons, List.foldlM_cons]
      rcases start.countFinding_spec finding with ⟨column, own, counted⟩ | ⟨none, fault, failed⟩
      · simp [counted, own, bind, Except.bind, inductionHypothesis]
      · simp [failed, none, bind, Except.bind]

/-- Counting a list of findings raises each count by the findings of its column. -/
theorem inColumn_foldlM_countFinding
    (counted : findings.foldlM Tally.countFinding start = .ok after) (column : Column) :
    after.inColumn column = start.inColumn column + countedIn findings column := by
  induction findings generalizing start with
  | nil =>
      cases counted
      simp [countedIn]
  | cons finding rest inductionHypothesis =>
      rw [List.foldlM_cons] at counted
      rcases start.countFinding_spec finding with ⟨own, spelled, raised⟩ | ⟨_, fault, failed⟩
      · rw [raised] at counted
        rw [inductionHypothesis counted, Tally.inColumn_raise, countedIn, countedIn,
          List.countP_cons, spelled]
        by_cases here : own = column
        · simp [here]
          omega
        · simp [here]
      · rw [failed] at counted
        cases counted

/-- Findings that can be counted are counted in one column each. -/
theorem countedIn_columns
    (countable : ∀ finding ∈ findings, (columnOf? finding.severity).isSome = true) :
    countedIn findings .critical + countedIn findings .high + countedIn findings .medium +
        countedIn findings .low + countedIn findings .files + countedIn findings .findings =
      findings.length := by
  unfold countedIn
  induction findings with
  | nil => rfl
  | cons finding rest inductionHypothesis =>
      obtain ⟨first, later⟩ := List.forall_mem_cons.1 countable
      obtain ⟨column, own⟩ := Option.isSome_iff_exists.1 first
      have others := inductionHypothesis later
      simp only [List.countP_cons, List.length_cons, own] at others ⊢
      cases column <;> simp <;> omega

/-- The counts of a tally are off by the findings that are counted elsewhere: the total
is too high by those that are counted in it, and the counts by severity lack these and
those that are counted as files. -/
theorem tallyOf_sums (counted : tallyOf findings files = .ok tally) :
    tally.totalFindings = findings.length + countedIn findings .findings ∧
      tally.critical + tally.high + tally.medium + tally.low + countedIn findings .files +
        countedIn findings .findings = findings.length := by
  have parts := countedIn_columns (exists_foldlM_countFinding_iff.1 ⟨tally, counted⟩)
  have total := inColumn_foldlM_countFinding counted .findings
  have critical := inColumn_foldlM_countFinding counted .critical
  have high := inColumn_foldlM_countFinding counted .high
  have medium := inColumn_foldlM_countFinding counted .medium
  have low := inColumn_foldlM_countFinding counted .low
  simp only [Tally.inColumn, Tally.start, Int.ofNat_eq_natCast] at total critical high medium low
  omega

theorem isGrade_iff {severity : Value} :
    isGrade severity = true ↔ (columnOf? severity).isSome = true ∧
      columnOf? severity ≠ some .files ∧ columnOf? severity ≠ some .findings := by
  unfold isGrade columnOf? otherFields
  split
  · generalize Text.lower _ = word
    split <;> simp_all
  · simp

/-- The counts add up exactly if no severity spells a field that counts no severity. -/
theorem tallyOf_balances_iff (findings : List Finding) (files : Int) :
    (∃ tally, tallyOf findings files = .ok tally ∧ tally.Balances findings.length) ↔
      ∀ finding ∈ findings, isGrade finding.severity = true := by
  have grades : (∀ finding ∈ findings, isGrade finding.severity = true) ↔
      (∃ tally, tallyOf findings files = .ok tally) ∧
        countedIn findings .files = 0 ∧ countedIn findings .findings = 0 := by
    unfold tallyOf countedIn
    simp only [isGrade_iff, exists_foldlM_countFinding_iff, List.countP_eq_zero,
      decide_eq_true_eq, ← forall₂_and]
  rw [grades]
  constructor
  · rintro ⟨tally, counted, sum, total⟩
    obtain ⟨above, below⟩ := tallyOf_sums counted
    exact ⟨⟨tally, counted⟩, by omega, by omega⟩
  · rintro ⟨⟨tally, counted⟩, noFiles, noFindings⟩
    obtain ⟨above, below⟩ := tallyOf_sums counted
    exact ⟨tally, counted, by omega, by omega⟩

/-- Each severity of a report has a column of its own. -/
theorem columnOf?_injective :
    ∀ severity ∈ severityOrder, ∀ other ∈ severityOrder,
      columnOf? (.text other) = columnOf? (.text severity) -> other = severity := by
  decide

/-- The count that a report shows for a severity is the one in its column, which starts
at zero. -/
theorem Tally.shown_eq (tally : Tally) {severity : String} (listed : severity ∈ severityOrder) :
    ∃ column, columnOf? (.text severity) = some column ∧
      tally.shown severity = tally.inColumn column ∧
      ∀ files total, (Tally.start files total).inColumn column = 0 := by
  simp only [severityOrder, List.mem_cons, List.not_mem_nil, or_false] at listed
  rcases listed with rfl | rfl | rfl | rfl
  · exact ⟨.critical, rfl, rfl, fun _ _ => rfl⟩
  · exact ⟨.high, rfl, rfl, fun _ _ => rfl⟩
  · exact ⟨.medium, rfl, rfl, fun _ _ => rfl⟩
  · exact ⟨.low, rfl, rfl, fun _ _ => rfl⟩

end PhpTaint.Findings
