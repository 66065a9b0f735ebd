import PhpTaint.Findings.Search
import PhpTaint.Proofs.Flow.Occurrences

/-!
# Arguments without a finding

A leaf makes no finding if a strong sanitizer is common to all flows from it. For an
elementary argument this says of every occurrence of an input that a strong sanitizer
was called around it and that no call further out undid it. So a check is silent about
protected occurrences only: `silent_check_collects_protected`.

The other way round it is not enough that every occurrence is protected. One record
stands for all occurrences of a leaf, so a check is silent exactly if they share a
sanitizer: `check_silent_iff_shared_sanitizer`.
-/

namespace PhpTaint.Findings

open PhpTaint.Flow Json Rules Scopes Syntax

/-! ## Protection -/

section Protection

variable {rules : RuleSet} {vulnerability : Scalar} {sanitizers : NameSet}

/-- The better of two protections is strong if one of them is. -/
theorem Protection.best_eq_strong_iff {left right : Protection} :
    left.best right = .strong ↔ left = .strong ∨ right = .strong := by
  cases left <;> cases right <;> simp [Protection.best]

/-- A sanitizer may be spelled in any way. -/
theorem protectionBy_normalizeName (sanitizer : String) :
    protectionBy rules vulnerability (normalizeName sanitizer) =
      protectionBy rules vulnerability sanitizer := by
  unfold protectionBy RuleSet.sanitizer?
  rw [normalizeName_normalizeName]

/-- What protects is a sanitizer. -/
theorem isSanitizer_of_protectionBy {sanitizer : String}
    (strong : protectionBy rules vulnerability sanitizer = .ok .strong) :
    rules.isSanitizer sanitizer = true := by
  unfold RuleSet.isSanitizer
  unfold protectionBy at strong
  cases found : rules.sanitizer? sanitizer with
  | some rule => rfl
  | none =>
      rw [found] at strong
      cases strong

/-- The only fault of a list of vulnerabilities is an ill-typed one. -/
theorem eq_illTyped_of_lists {value wanted : Value} {fault : Fault}
    (failed : lists value wanted = .error fault) : fault = .illTyped := by
  unfold lists at failed
  split at failed <;> cases failed
  rfl

/-- A protection is known unless the rule of the sanitizer is ill-typed. -/
theorem eq_illTyped_of_protectionBy {sanitizer : String} {fault : Fault}
    (failed : protectionBy rules vulnerability sanitizer = .error fault) : fault = .illTyped := by
  unfold protectionBy at failed
  cases found : rules.sanitizer? sanitizer with
  | none =>
      rw [found] at failed
      cases failed
  | some rule =>
      rw [found] at failed
      cases listed : lists rule.protectsAgainst (.scalar vulnerability) with
      | error other =>
          obtain rfl := eq_illTyped_of_lists listed
          simp only [listed] at failed
          cases failed
          rfl
      | ok protects =>
          simp only [listed] at failed
          cases protects with
          | false => cases failed
          | true =>
              generalize rule.strength = strength at failed
              cases strength <;> cases failed <;> rfl

/-- The protection by several sanitizers is strong if that by one of them is. It is not
known if one is not known. -/
theorem protectionOf_cases (rules : RuleSet) (vulnerability : Scalar)
    (sanitizers : NameSet) :
    (∃ protection, protectionOf rules vulnerability sanitizers = .ok protection ∧
      (protection = .strong ↔ ∃ sanitizer, sanitizer ∈ sanitizers ∧
        protectionBy rules vulnerability sanitizer = .ok .strong)) ∨
    (protectionOf rules vulnerability sanitizers = .error .illTyped ∧
      ∃ sanitizer, sanitizer ∈ sanitizers ∧
        protectionBy rules vulnerability sanitizer = .error .illTyped) := by
  suffices folded : forall (names : List String) (start : Protection),
      let outcome : Except Fault Protection := names.foldlM (fun best sanitizer => do
        return best.best (← protectionBy rules vulnerability sanitizer)) start
      (∃ protection, outcome = .ok protection ∧
        (protection = .strong ↔ start = .strong ∨ ∃ sanitizer, sanitizer ∈ names ∧
          protectionBy rules vulnerability sanitizer = .ok .strong)) ∨
      (outcome = .error .illTyped ∧ ∃ sanitizer, sanitizer ∈ names ∧
        protectionBy rules vulnerability sanitizer = .error .illTyped) by
    have whole := folded sanitizers.toList .absent
    simp only [reduceCtorEq, false_or] at whole
    exact whole
  intro names
  induction names with
  | nil => exact fun start => Or.inl ⟨start, rfl, by simp⟩
  | cons name rest inductionHypothesis =>
      intro start
      simp only [List.foldlM_cons, List.exists_mem_cons_iff]
      cases one : protectionBy rules vulnerability name with
      | error fault =>
          obtain rfl := eq_illTyped_of_protectionBy one
          exact Or.inr ⟨rfl, Or.inl rfl⟩
      | ok protection =>
          rcases inductionHypothesis (start.best protection) with
            ⟨best, ended, strong⟩ | ⟨failed, sanitizer, member, unknown⟩
          · refine Or.inl ⟨best, ended, strong.trans ?_⟩
            rw [Protection.best_eq_strong_iff, or_assoc, Except.ok.injEq]
          · exact Or.inr ⟨failed, Or.inr ⟨sanitizer, member, unknown⟩⟩

end Protection

/-! ## Checks -/

section Checks

variable {program : Program} {memory : Memory} {includeUnknown : Bool} {node expression : Node}
  {sink : SinkRule}

/-- Every leaf that would be reported is strongly protected. -/
def Silent (rules : RuleSet) (includeUnknown : Bool) (sink : SinkRule)
    (records : List LeafRecord) : Prop :=
  forall record, record ∈ records -> isReported includeUnknown record.level = true ->
    protectionOf rules sink.vulnerability record.common = .ok .strong

/-- A leaf that would be reported has a protection that is not known. -/
def Unclear (rules : RuleSet) (includeUnknown : Bool) (sink : SinkRule)
    (records : List LeafRecord) (fault : Fault) : Prop :=
  ∃ record, record ∈ records ∧ isReported includeUnknown record.level = true ∧
    protectionOf rules sink.vulnerability record.common = .error fault

/-- A leaf is reported if it is not protected, unless the rules are unclear about it. -/
theorem judgeLeaf_concludes (verdict : Verdict) (record : LeafRecord) :
    Concludes program memory (judgeLeaf includeUnknown node sink verdict record)
      (fun next _ => (next.reported = [] ↔ verdict.reported = [] ∧
          Silent program.rules includeUnknown sink [record]) ∧
        forall fault, ¬ Unclear program.rules includeUnknown sink [record] fault)
      (fun fault _ => Unclear program.rules includeUnknown sink [record] fault) := by
  unfold judgeLeaf Silent Unclear
  simp only [List.mem_singleton, forall_eq, exists_eq_left]
  cases reported : isReported includeUnknown record.level with
  | false => simp
  | true =>
      cases protection : protectionOf program.rules sink.vulnerability record.common with
      | error fault => simp [orFault, protection]
      | ok best => cases best <;> simp [orFault, protection, remark]

/-- Leaves are reported if they are not protected, unless the rules are unclear about one. -/
theorem judgeLeaves_concludes (records : List LeafRecord) :
    Concludes program memory (records.foldlM (judgeLeaf includeUnknown node sink) ⟨[], .low⟩)
      (fun verdict _ =>
        (verdict.reported = [] ↔ Silent program.rules includeUnknown sink records) ∧
          forall fault, ¬ Unclear program.rules includeUnknown sink records fault)
      (fun fault _ => Unclear program.rules includeUnknown sink records fault) := by
  refine Concludes.foldlM (fun done (verdict : Verdict) _ =>
    (verdict.reported = [] ↔ Silent program.rules includeUnknown sink done) ∧
      forall fault, ¬ Unclear program.rules includeUnknown sink done fault)
    (by simp [Silent, Unclear]) ?_
  rintro done record rest split verdict memory ⟨silent, clear⟩
  refine (judgeLeaf_concludes verdict record).mono ?_ ?_
  · rintro next _ ⟨judged, known⟩
    refine ⟨?_, ?_⟩
    · rw [judged, silent]
      unfold Silent
      simp only [List.forall_mem_append]
    · rintro fault ⟨other, member, unknown⟩
      rcases List.mem_append.1 member with earlier | last
      · exact clear fault ⟨other, earlier, unknown⟩
      · exact known fault ⟨other, last, unknown⟩
  · rintro fault _ ⟨other, member, unknown⟩
    obtain rfl := List.mem_singleton.1 member
    exact ⟨other, split ▸ List.mem_append_right _ (List.mem_cons_self ..), unknown⟩

/-- A check is silent if all leaves of the traced argument are protected, and it ends
with a fault only if a protection is not known. -/
theorem checkArgument_concludes {holds : Deps -> Prop} (includeUnknown : Bool) (node : Node)
    (sink : SinkRule)
    (traced : Concludes program (memory.withTracer (Tracer.fresh [] true)) (trace expression)
      (fun deps _ => holds deps) fun _ _ => False) :
    Concludes program memory (checkArgument includeUnknown node sink (some expression))
      (fun found _ => ∃ deps, holds deps ∧
        (found = none ↔ Silent program.rules includeUnknown sink deps.values) ∧
        forall fault, ¬ Unclear program.rules includeUnknown sink deps.values fault)
      (fun fault _ => ∃ deps, holds deps ∧
        Unclear program.rules includeUnknown sink deps.values fault) := by
  simp only [checkArgument, traceInPlace, Concludes.bind_iff, Concludes.withTracer_iff,
    Concludes.pure_iff]
  refine traced.mono ?_ fun _ _ never => never.elim
  intro deps after collected
  refine (judgeLeaves_concludes deps.values).mono ?_ ?_
  · rintro verdict _ ⟨silent, clear⟩
    split
    · rename_i isEmpty
      exact ⟨deps, collected, by simpa using silent.1 (List.isEmpty_iff.1 isEmpty), clear⟩
    · rename_i notEmpty
      refine ⟨deps, collected, ?_, clear⟩
      rw [← silent]
      simpa using notEmpty
  · exact fun fault _ unclear => ⟨deps, collected, unclear⟩

end Checks

/-! ## What silence says -/

section Occurrences

variable {rules : RuleSet} {vulnerability : Scalar} {includeUnknown : Bool} {node : Node}
  {sink : SinkRule} {functions : List String} {deps : Deps} {occurrence : Occurrence}

/-- A strong sanitizer is among some calls, and no call further out undoes it. -/
def Guarded (rules : RuleSet) (vulnerability : Scalar) (functions : List String) : Prop :=
  ∃ inner function outer, functions = inner ++ function :: outer ∧
    protectionBy rules vulnerability function = .ok .strong ∧
    forall other, other ∈ outer -> ¬ Undoes rules other (normalizeName function)

/-- A strong sanitizer that some calls leave guards what they are called around. -/
theorem guarded_of_applied {sanitizer : String}
    (applied : sanitizer ∈ (Treatment.ofCalls rules functions).applied)
    (strong : protectionBy rules vulnerability sanitizer = .ok .strong) :
    Guarded rules vulnerability functions := by
  obtain ⟨inner, function, outer, split, _, rfl, kept⟩ := Treatment.mem_applied_iff.1 applied
  rw [protectionBy_normalizeName] at strong
  exact ⟨inner, function, outer, split, strong, kept⟩

/-- What is reported of one occurrence of a leaf is reported of the leaf. -/
theorem isReported_of_rank_le {level whole : Level} (above : level.rank <= whole.rank)
    (reported : isReported includeUnknown level = true) :
    isReported includeUnknown whole = true := by
  cases level <;> cases whole <;> simp_all [isReported, Level.rank]

/-- If all leaves are protected, a leaf with an occurrence that would be reported has a
strong sanitizer on all flows. -/
theorem exists_common_of_silent (collects : Collects rules node deps)
    (silent : Silent rules includeUnknown sink deps.values) (occurs : Occurs rules node occurrence)
    (reported : isReported includeUnknown occurrence.level = true) :
    ∃ record, Records rules node record occurrence.leaf ∧ ∃ sanitizer,
      sanitizer ∈ record.common ∧
        protectionBy rules sink.vulnerability sanitizer = .ok .strong := by
  obtain ⟨record, found⟩ :=
    (Table.mem_keys_iff ..).1 ((collects.leaves occurrence.leaf).2 ⟨occurrence, occurs, rfl⟩)
  have records := collects.records occurrence.leaf record found
  have strong := silent record (Table.mem_values_iff.2 ⟨_, found⟩)
    (isReported_of_rank_le (records.rank_le occurrence occurs rfl) reported)
  rcases protectionOf_cases rules sink.vulnerability record.common with
    ⟨protection, known, best⟩ | ⟨unknown, _⟩
  · rw [strong] at known
    obtain rfl := Except.ok.inj known
    exact ⟨record, records, best.1 rfl⟩
  · rw [strong] at unknown
    cases unknown

/-- If all leaves are protected, every occurrence of an input is guarded. -/
theorem guarded_of_silent (collects : Collects rules node deps)
    (silent : Silent rules includeUnknown sink deps.values) (occurs : Occurs rules node occurrence)
    (tainted : occurrence.level = .tainted) :
    Guarded rules sink.vulnerability occurrence.functions := by
  obtain ⟨record, records, sanitizer, member, strong⟩ :=
    exists_common_of_silent collects silent occurs (by rw [tainted]; rfl)
  exact guarded_of_applied ((records.common sanitizer).1 member occurrence occurs rfl) strong

/-- A sanitizer is called, in some spelling. -/
def CalledAmong (sanitizer : String) (functions : List String) : Prop :=
  ∃ function, function ∈ functions ∧ normalizeName function = normalizeName sanitizer

/-- Calls among which nothing is undone leave every sanitizer. -/
theorem applied_of_calledAmong {sanitizer : String} (called : CalledAmong sanitizer functions)
    (isSanitizer : rules.isSanitizer sanitizer = true)
    (irreversible : forall function, function ∈ functions -> rules.isReverse function = false) :
    normalizeName sanitizer ∈ (Treatment.ofCalls rules functions).applied := by
  obtain ⟨function, member, same⟩ := called
  obtain ⟨inner, outer, split⟩ := List.append_of_mem member
  refine Treatment.mem_applied_iff.2 ⟨inner, function, outer, split, ?_, same, ?_⟩
  · rw [← isSanitizer_normalizeName, same, isSanitizer_normalizeName]
    exact isSanitizer
  · rintro other further ⟨_, undone⟩
    have harmless := irreversible other (by simp [split, further])
    simp [RuleSet.isReverse, undone] at harmless

/-- All occurrences of a leaf have one strong sanitizer called around them. -/
def SharesSanitizer (rules : RuleSet) (vulnerability : Scalar) (node : Node) (leaf : String) :
    Prop :=
  ∃ sanitizer, protectionBy rules vulnerability sanitizer = .ok .strong ∧
    forall occurrence, Occurs rules node occurrence -> occurrence.leaf = leaf ->
      CalledAmong sanitizer occurrence.functions

/-- No call around an occurrence undoes a sanitizer. -/
def Irreversible (rules : RuleSet) (node : Node) : Prop :=
  forall occurrence function, Occurs rules node occurrence -> function ∈ occurrence.functions ->
    rules.isReverse function = false

/-- The rule of a sanitizer around an occurrence does not say what it protects
against. -/
def CallsIllTyped (rules : RuleSet) (vulnerability : Scalar) (node : Node) : Prop :=
  ∃ occurrence function, Occurs rules node occurrence ∧ function ∈ occurrence.functions ∧
    protectionBy rules vulnerability function = .error .illTyped

/-- If all leaves are protected, the occurrences of a leaf that would be reported share
what protects it. -/
theorem shares_of_silent (collects : Collects rules node deps)
    (silent : Silent rules includeUnknown sink deps.values) (occurs : Occurs rules node occurrence)
    (reported : isReported includeUnknown occurrence.level = true) :
    SharesSanitizer rules sink.vulnerability node occurrence.leaf := by
  obtain ⟨record, records, sanitizer, member, strong⟩ :=
    exists_common_of_silent collects silent occurs reported
  refine ⟨sanitizer, strong, fun other elsewhere same => ?_⟩
  obtain ⟨inner, function, outer, split, _, rfl, _⟩ :=
    Treatment.mem_applied_iff.1 ((records.common sanitizer).1 member other elsewhere same)
  exact ⟨function, by simp [split], (normalizeName_normalizeName function).symm⟩

/-- A leaf whose occurrences share a sanitizer is protected, unless that is not known. -/
theorem protectionOf_of_shares {record : LeafRecord} {leaf : String}
    (records : Records rules node record leaf) (shares : SharesSanitizer rules vulnerability node leaf)
    (irreversible : Irreversible rules node) :
    protectionOf rules vulnerability record.common = .ok .strong ∨
      protectionOf rules vulnerability record.common = .error .illTyped := by
  obtain ⟨sanitizer, strong, called⟩ := shares
  have member : normalizeName sanitizer ∈ record.common := by
    refine (records.common _).2 fun occurrence occurs same => ?_
    exact applied_of_calledAmong (called occurrence occurs same)
      (isSanitizer_of_protectionBy strong) fun function => irreversible occurrence function occurs
  rcases protectionOf_cases rules vulnerability record.common with
    ⟨protection, known, best⟩ | ⟨unknown, _⟩
  · have isStrong := best.2 ⟨_, member, (protectionBy_normalizeName sanitizer).trans strong⟩
    exact Or.inl (isStrong ▸ known)
  · exact Or.inr unknown

/-- The protection of a leaf is not known only if a sanitizer around it is ill-typed. -/
theorem callsIllTyped_of_protectionOf {record : LeafRecord} {leaf : String} {fault : Fault}
    (records : Records rules node record leaf)
    (unknown : protectionOf rules vulnerability record.common = .error fault) :
    fault = .illTyped ∧ CallsIllTyped rules vulnerability node := by
  rcases protectionOf_cases rules vulnerability record.common with
    ⟨protection, known, _⟩ | ⟨failed, sanitizer, common, illTyped⟩
  · rw [known] at unknown
    cases unknown
  · rw [failed] at unknown
    cases unknown
    obtain ⟨occurrence, occurs, same, _⟩ := records.attained
    have applied := (records.common sanitizer).1 common occurrence occurs same
    obtain ⟨inner, function, outer, split, _, rfl, _⟩ := Treatment.mem_applied_iff.1 applied
    rw [protectionBy_normalizeName] at illTyped
    exact ⟨rfl, occurrence, function, occurs, by simp [split], illTyped⟩

end Occurrences

/-! ## The checks of elementary arguments -/

section Elementary

variable {roots : List Node} {ends : List ScopeId} {annotator : Annotation.Annotator} {node : Node}

/-- In annotated files an elementary expression is traced to what occurs in it: the
sanitizers of a leaf are those of some occurrence, the common ones those of every
occurrence and the undone ones those of some occurrence, each taken from the calls
around it from the inside out. And if a check of it is silent, every occurrence of an
input is guarded by a strong sanitizer. -/
theorem silent_check_collects_protected
    (annotated : roots.mapM Annotation.annotateProgram Annotation.Annotator.start =
      .ok ends annotator) (rules : RuleSet) (member : node ∈ nodesOf roots)
    (elementary : Elementary (Program.ofAnnotated annotator rules roots) [] node)
    (memory : Memory) :
    let program := Program.ofAnnotated annotator rules roots
    (forall followsCalls, ∃ deps after,
      trace node program (memory.withTracer (Tracer.fresh [] followsCalls)) = .ok deps after ∧
        Collects rules node deps) ∧
    forall includeUnknown sinkNode sink after,
      checkArgument includeUnknown sinkNode sink (some node) program memory = .ok none after ->
        forall occurrence, Occurs rules node occurrence -> occurrence.level = .tainted ->
          Guarded rules sink.vulnerability occurrence.functions := by
  intro program
  have collected := trace_collects (Grounded.of_annotated annotated rules) rfl member elementary
    memory
  refine ⟨?_, ?_⟩
  · intro followsCalls
    have traced := collected followsCalls
    unfold Concludes at traced
    cases run : trace node program (memory.withTracer (Tracer.fresh [] followsCalls)) with
    | ok deps after =>
        rw [run] at traced
        exact ⟨deps, after, rfl, traced⟩
    | error fault after =>
        rw [run] at traced
        exact traced.elim
  · intro includeUnknown sinkNode sink after ended occurrence occurs tainted
    obtain ⟨deps, collects, silent, _⟩ :=
      (checkArgument_concludes includeUnknown sinkNode sink (collected true)).of_ok ended
    exact guarded_of_silent collects (silent.1 rfl) occurs tainted

/-- Rules with the input `$_GET`, the sink `echo`, two strong sanitizers for it and a
function that undoes the first of them. -/
def twoSanitizerRules : RuleSet :=
  let strong (name : String) : SanitizerRule :=
    ⟨name, .list [.scalar (.text "XSS")], .list [], .scalar (.text "strong")⟩
  { sources :=
      Table.empty.insert (.text "$_GET") ⟨.text "$_GET", .text "$_GET", variableCategory, .null⟩
    sinks := Table.empty.insert "echo"
      ⟨"echo", .text "XSS", .text "HIGH", .null, .text "CWE-79", .text "construct", .null⟩
    sanitizers := (Table.empty.insert "e" (strong "e")).insert "h" (strong "h")
    reverses := Table.empty.insert "d" "e" }

/-- The sink of `twoSanitizerRules`. -/
def echoSink : SinkRule :=
  ⟨"echo", .text "XSS", .text "HIGH", .null, .text "CWE-79", .text "construct", .null⟩

/-- A call of a function with a name of one letter. -/
def shortCall (label : String) (start stop : Nat) (argument : Tree) : Tree :=
  .node "function_call_expression" true start stop label [
    .node "name" true start (start + 1) "function" [],
    .node "arguments" true (start + 1) stop "arguments" [
      .node "argument" true (start + 2) (stop - 1) "" [argument]]]

/-- The input `$_GET`. -/
def inputAt (start : Nat) : Tree := .node "variable_name" true start (start + 5) "" []

/-- A file that prints an expression. -/
def printingFile (code : String) (stop : Nat) (expression : Tree) : Node :=
  ⟨⟨"echo.php", code.toUTF8⟩, .node "program" true 0 stop "" [
    .node "php_tag" true 0 5 "" [], .node "echo_statement" true 6 stop "" [expression]]⟩

/-- The printed expression is a node of its file. -/
theorem printed_mem_nodesOf (code : String) (stop : Nat) (expression : Tree) :
    (printingFile code stop expression).withTree expression ∈
      nodesOf [printingFile code stop expression] := by
  have statement := mem_nodesOf_of_mem_children
    (mem_nodesOf_of_root (List.mem_singleton.2 (Eq.refl (printingFile code stop expression))))
    (List.mem_cons_of_mem _ (List.mem_cons_self ..))
  exact mem_nodesOf_of_mem_children statement (List.mem_cons_self ..)

/-- Where two occurrences are listed there are no others. -/
theorem eq_or_eq_of_occurs {rules : RuleSet} {first second occurrence : Occurrence}
    (listed : occurrences rules node = [first, second]) (occurs : Occurs rules node occurrence) :
    occurrence = first ∨ occurrence = second := by
  rw [← mem_occurrences, listed] at occurs
  simpa using occurs

/-- The expression in `repairedFile`. -/
def repairedExpression : Tree :=
  .node "binary_expression" true 11 36 "" [
    shortCall "left" 11 25 (shortCall "" 13 24 (shortCall "" 15 23 (inputAt 17))),
    shortCall "right" 28 36 (inputAt 30)]

/-- The file `<?php echo e(d(e($_GET))) . e($_GET);`. -/
def repairedFile : Node :=
  printingFile "<?php echo e(d(e($_GET))) . e($_GET);" 37 repairedExpression

/-- A sanitizer that was undone and called again guards as well as one that was called
once, and the check of `repairedFile` is silent. -/
theorem silent_check_collects_protected_repaired :
    let node := repairedFile.withTree repairedExpression
    ∃ ends annotator, [repairedFile].mapM Annotation.annotateProgram
        Annotation.Annotator.start = .ok ends annotator ∧
      let program := Program.ofAnnotated annotator twoSanitizerRules [repairedFile]
      Elementary program [] node ∧
      occurrences twoSanitizerRules node =
        [⟨"$_GET", .tainted, ["e", "d", "e"]⟩, ⟨"$_GET", .tainted, ["e"]⟩] ∧
      (∃ deps after, trace node program (Memory.start.withTracer (Tracer.fresh [] true)) =
        .ok deps after ∧ Collects twoSanitizerRules node deps) ∧
      (∃ after, checkArgument false repairedFile echoSink (some node) program Memory.start =
        .ok none after) ∧
      Guarded twoSanitizerRules (.text "XSS") ["e", "d", "e"] := by
  intro node
  have ran : Outcome.passes (fun _ annotator =>
      let program := Program.ofAnnotated annotator twoSanitizerRules [repairedFile]
      node.preorder.all (isElementaryNode program []) &&
      Outcome.passes (fun found _ => found.isNone)
        (checkArgument false repairedFile echoSink (some node) program Memory.start))
      ([repairedFile].mapM Annotation.annotateProgram Annotation.Annotator.start) = true := by
    decide +kernel
  obtain ⟨ends, annotator, outcome, held⟩ := Outcome.exists_of_passes ran
  simp only [Bool.and_eq_true] at held
  obtain ⟨checked, silent⟩ := held
  obtain ⟨found, after, ended, none⟩ := Outcome.exists_of_passes silent
  obtain rfl := Option.isNone_iff_eq_none.1 none
  have listed : occurrences twoSanitizerRules node =
      [⟨"$_GET", .tainted, ["e", "d", "e"]⟩, ⟨"$_GET", .tainted, ["e"]⟩] := by decide +kernel
  have member : node ∈ nodesOf [repairedFile] := printed_mem_nodesOf ..
  have elementary := Elementary.of_all checked
  obtain ⟨collected, guarded⟩ := silent_check_collects_protected outcome twoSanitizerRules
    member elementary Memory.start
  refine ⟨ends, annotator, outcome, elementary, listed, collected true, ⟨after, ended⟩, ?_⟩
  exact guarded false repairedFile echoSink after ended ⟨"$_GET", .tainted, ["e", "d", "e"]⟩
    (mem_occurrences.1 (by rw [listed]; exact List.mem_cons_self ..)) rfl

/-- Where nothing is undone, a check of an elementary argument is silent exactly if the
occurrences of every leaf that it would report share a strong sanitizer. It fails only
at the rule of a called sanitizer that is ill-typed. -/
theorem check_silent_iff_shared_sanitizer
    (annotated : roots.mapM Annotation.annotateProgram Annotation.Annotator.start =
      .ok ends annotator) (rules : RuleSet) (member : node ∈ nodesOf roots)
    (elementary : Elementary (Program.ofAnnotated annotator rules roots) [] node)
    (irreversible : Irreversible rules node) (memory : Memory) (includeUnknown : Bool)
    (sinkNode : Node) (sink : SinkRule) :
    let program := Program.ofAnnotated annotator rules roots
    (∃ found after,
      checkArgument includeUnknown sinkNode sink (some node) program memory = .ok found after ∧
      (found = none ↔ forall occurrence, Occurs rules node occurrence ->
        isReported includeUnknown occurrence.level = true ->
          SharesSanitizer rules sink.vulnerability node occurrence.leaf)) ∨
    (CallsIllTyped rules sink.vulnerability node ∧ ∃ after,
      checkArgument includeUnknown sinkNode sink (some node) program memory =
        .error .illTyped after) := by
  intro program
  have checked := checkArgument_concludes includeUnknown sinkNode sink
    (trace_collects (Grounded.of_annotated annotated rules) rfl member elementary memory true)
  unfold Concludes at checked
  cases run : checkArgument includeUnknown sinkNode sink (some node) program memory with
  | ok found after =>
      rw [run] at checked
      obtain ⟨deps, collects, silent, clear⟩ := checked
      refine Or.inl ⟨found, after, rfl, silent.trans ⟨?_, ?_⟩⟩
      · intro silent occurrence occurs reported
        exact shares_of_silent collects silent occurs reported
      · intro shared record listed reported
        obtain ⟨leaf, found⟩ := Table.mem_values_iff.1 listed
        have records := collects.records leaf record found
        obtain ⟨occurrence, occurs, rfl, level⟩ := records.attained
        refine (protectionOf_of_shares records (shared occurrence occurs (level ▸ reported))
          irreversible).resolve_right fun unknown => ?_
        exact clear _ ⟨record, listed, reported, unknown⟩
  | error fault after =>
      rw [run] at checked
      obtain ⟨deps, collects, record, listed, _, unknown⟩ := checked
      obtain ⟨leaf, found⟩ := Table.mem_values_iff.1 listed
      obtain ⟨rfl, calls⟩ := callsIllTyped_of_protectionOf (collects.records leaf record found) unknown
      exact Or.inr ⟨calls, after, rfl⟩

/-- The expression in `agreeingFile`. -/
def agreeingExpression : Tree :=
  .node "binary_expression" true 11 33 "" [
    shortCall "left" 11 19 (inputAt 13),
    shortCall "right" 22 33 (shortCall "" 24 32 (inputAt 26))]

/-- The file `<?php echo e($_GET) . e(h($_GET));`. -/
def agreeingFile : Node :=
  printingFile "<?php echo e($_GET) . e(h($_GET));" 34 agreeingExpression

/-- Both occurrences in `agreeingFile` are in calls of `e`, and its check is silent. -/
theorem check_silent_iff_shared_sanitizer_agreeing :
    let node := agreeingFile.withTree agreeingExpression
    ∃ ends annotator, [agreeingFile].mapM Annotation.annotateProgram
        Annotation.Annotator.start = .ok ends annotator ∧
      let program := Program.ofAnnotated annotator twoSanitizerRules [agreeingFile]
      Elementary program [] node ∧ Irreversible twoSanitizerRules node ∧
      SharesSanitizer twoSanitizerRules (.text "XSS") node "$_GET" ∧
      ∃ after, checkArgument false agreeingFile echoSink (some node) program Memory.start =
        .ok none after := by
  intro node
  have ran : Outcome.passes (fun _ annotator => node.preorder.all
        (isElementaryNode (Program.ofAnnotated annotator twoSanitizerRules [agreeingFile]) []))
      ([agreeingFile].mapM Annotation.annotateProgram Annotation.Annotator.start) = true := by
    decide +kernel
  obtain ⟨ends, annotator, outcome, checked⟩ := Outcome.exists_of_passes ran
  have listed : occurrences twoSanitizerRules node =
      [⟨"$_GET", .tainted, ["e"]⟩, ⟨"$_GET", .tainted, ["h", "e"]⟩] := by decide +kernel
  have member : node ∈ nodesOf [agreeingFile] := printed_mem_nodesOf ..
  have elementary := Elementary.of_all checked
  have irreversible : Irreversible twoSanitizerRules node := by
    intro occurrence function occurs called
    rcases eq_or_eq_of_occurs listed occurs with rfl | rfl
    · simp only [List.mem_singleton] at called
      subst called
      decide +kernel
    · simp only [List.mem_cons, List.not_mem_nil, or_false] at called
      rcases called with rfl | rfl <;> decide +kernel
  have shares : SharesSanitizer twoSanitizerRules (.text "XSS") node "$_GET" := by
    refine ⟨"e", by rfl, fun occurrence occurs _ => ⟨"e", ?_, rfl⟩⟩
    rcases eq_or_eq_of_occurs listed occurs with rfl | rfl <;> simp
  refine ⟨ends, annotator, outcome, elementary, irreversible, shares, ?_⟩
  rcases check_silent_iff_shared_sanitizer outcome twoSanitizerRules member elementary irreversible
      Memory.start false agreeingFile echoSink with
    ⟨found, after, ended, silent⟩ | ⟨⟨occurrence, function, occurs, called, illTyped⟩, _⟩
  · have none : found = none := by
      refine silent.2 fun occurrence occurs _ => ?_
      rcases eq_or_eq_of_occurs listed occurs with rfl | rfl <;> exact shares
    exact ⟨after, none ▸ ended⟩
  · rcases eq_or_eq_of_occurs listed occurs with rfl | rfl
    · simp only [List.mem_singleton] at called
      subst called
      cases illTyped
    · simp only [List.mem_cons, List.not_mem_nil, or_false] at called
      rcases called with rfl | rfl <;> cases illTyped

/-- The expression in `disagreeingFile`. -/
def disagreeingExpression : Tree :=
  .node "binary_expression" true 11 30 "" [
    shortCall "left" 11 19 (inputAt 13), shortCall "right" 22 30 (inputAt 24)]

/-- The file `<?php echo e($_GET) . h($_GET);`. -/
def disagreeingFile : Node :=
  printingFile "<?php echo e($_GET) . h($_GET);" 31 disagreeingExpression

/-- Both occurrences in `disagreeingFile` are in a call of a strong sanitizer, and
nothing is undone. But they do not share the sanitizer, so the check has a finding. -/
theorem check_reports_without_shared_sanitizer :
    let node := disagreeingFile.withTree disagreeingExpression
    ∃ ends annotator, [disagreeingFile].mapM Annotation.annotateProgram
        Annotation.Annotator.start = .ok ends annotator ∧
      let program := Program.ofAnnotated annotator twoSanitizerRules [disagreeingFile]
      Elementary program [] node ∧
      (forall occurrence, Occurs twoSanitizerRules node occurrence ->
        ∃ function, function ∈ occurrence.functions ∧
          protectionBy twoSanitizerRules (.text "XSS") function = .ok .strong) ∧
      Irreversible twoSanitizerRules node ∧
      ∃ finding after,
        checkArgument false disagreeingFile echoSink (some node) program Memory.start =
          .ok (some finding) after ∧
        finding.level = .tainted := by
  intro node
  have ran : Outcome.passes (fun _ annotator =>
      let program := Program.ofAnnotated annotator twoSanitizerRules [disagreeingFile]
      node.preorder.all (isElementaryNode program []) &&
      Outcome.passes (fun found _ => found.any fun finding => decide (finding.level = .tainted))
        (checkArgument false disagreeingFile echoSink (some node) program Memory.start))
      ([disagreeingFile].mapM Annotation.annotateProgram Annotation.Annotator.start) = true := by
    decide +kernel
  obtain ⟨ends, annotator, outcome, held⟩ := Outcome.exists_of_passes ran
  simp only [Bool.and_eq_true] at held
  obtain ⟨checked, reported⟩ := held
  obtain ⟨found, after, ended, tainted⟩ := Outcome.exists_of_passes reported
  have listed : occurrences twoSanitizerRules node =
      [⟨"$_GET", .tainted, ["e"]⟩, ⟨"$_GET", .tainted, ["h"]⟩] := by decide +kernel
  refine ⟨ends, annotator, outcome, Elementary.of_all checked, ?_, ?_, ?_⟩
  · intro occurrence occurs
    rcases eq_or_eq_of_occurs listed occurs with rfl | rfl
    · exact ⟨"e", List.mem_singleton.2 rfl, rfl⟩
    · exact ⟨"h", List.mem_singleton.2 rfl, rfl⟩
  · intro occurrence function occurs called
    rcases eq_or_eq_of_occurs listed occurs with rfl | rfl <;> cases List.mem_singleton.1 called <;> decide +kernel
  · cases found with
    | none => cases tainted
    | some finding => exact ⟨finding, after, ended, of_decide_eq_true tainted⟩

end Elementary

end PhpTaint.Findings
