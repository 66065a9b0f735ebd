import PhpTaint.Proofs.Findings.Suppression
import PhpTaint.Proofs.Flow.Wrappers

/-!
# Checks of calls of wrappers

A sink that is given the value of a wrapper of a strong sanitizer makes no finding:
`wrapper_protects_like_sanitizer`. This holds in every memory of an analysis, so also
after any other checks, as checks are steps of an analysis themselves.
-/

namespace PhpTaint.Findings

open PhpTaint.Flow Json Rules Scopes Syntax

section Checks

variable {program : Program} {declared : Node -> Prop} {memory : Memory} {includeUnknown : Bool}
  {node expression : Node} {sink : SinkRule} {sanitizer : String} {deps : Deps}

/-- Judging leaves takes notes and nothing else. -/
theorem judgeLeaves_summaries (records : List LeafRecord) (verdict : Verdict) :
    Concludes program memory (records.foldlM (judgeLeaf includeUnknown node sink) verdict)
      (fun _ after => after.summaries = memory.summaries)
      fun _ after => after.summaries = memory.summaries := by
  refine Concludes.foldlM (fun _ _ after => after.summaries = memory.summaries) rfl ?_
  rintro done record rest _ current after same
  unfold judgeLeaf
  split
  · exact same
  · rw [Concludes.bind_iff, Concludes.read_iff]
    cases protectionOf program.rules sink.vulnerability record.common with
    | error fault => exact same
    | ok best => cases best <;> exact same

/-- What a check leaves behind is a memory of the analysis. -/
theorem arises_checkArgument (arises : Arises program declared memory) (argument : Option Node) :
    Arises program declared
      (Ending.memory (checkArgument includeUnknown node sink argument program memory)) := by
  refine Concludes.memory_iff.1 ?_
  cases argument with
  | none => exact arises
  | some expression =>
      have traced := Concludes.memory_iff.2
        (arises.withTracer (Tracer.fresh [] true) (.trace expression) program.depth)
      simp only [checkArgument, traceInPlace, Concludes.bind_iff, Concludes.pure_iff]
      refine Concludes.mono traced ?_ fun _ _ arises => arises
      intro traced after arises
      refine (judgeLeaves_summaries traced.1.values ⟨[], .low⟩).mono ?_
        fun _ _ same => arises.beside same
      intro verdict final same
      split <;> exact arises.beside same

/-- The rule of a sanitizer that acts on a leaf on all flows does not say what it protects
against. -/
def SharesIllTyped (rules : RuleSet) (vulnerability : Scalar) (deps : Deps) : Prop :=
  ∃ record other, record ∈ deps.values ∧ other ∈ record.common ∧
    protectionBy rules vulnerability other = .error .illTyped

/-- Leaves that have passed through a strong sanitizer are not reported, unless it is not
known how well another sanitizer protects them. -/
theorem judgeLeaves_sanitized (sanitized : Sanitized (normalizeName sanitizer) deps)
    (strong : protectionBy program.rules sink.vulnerability sanitizer = .ok .strong) :
    Concludes program memory (deps.values.foldlM (judgeLeaf includeUnknown node sink) ⟨[], .low⟩)
      (fun verdict _ => verdict.reported = [])
      (fun fault _ => fault = .illTyped ∧ SharesIllTyped program.rules sink.vulnerability deps) := by
  have protectedBy : forall record, record ∈ deps.values ->
      protectionOf program.rules sink.vulnerability record.common = .ok .strong ∨
      (protectionOf program.rules sink.vulnerability record.common = .error .illTyped ∧
        ∃ other, other ∈ record.common ∧
          protectionBy program.rules sink.vulnerability other = .error .illTyped) := by
    intro record listed
    obtain ⟨leaf, found⟩ := Table.mem_values_iff.1 listed
    have common := sanitized leaf record found
    refine (protectionOf_cases program.rules sink.vulnerability record.common).imp_left ?_
    rintro ⟨protection, known, best⟩
    rw [known, best.2 ⟨_, common, by rw [protectionBy_normalizeName, strong]⟩]
  refine (judgeLeaves_concludes deps.values).mono ?_ ?_
  · rintro verdict _ ⟨silent, clear⟩
    refine silent.2 fun record listed reported => (protectedBy record listed).resolve_right ?_
    exact fun unknown => clear .illTyped ⟨record, listed, reported, unknown.1⟩
  · rintro fault _ ⟨record, listed, _, failed⟩
    rcases protectedBy record listed with known | ⟨unknown, other, common, illTyped⟩
    · rw [failed] at known
      cases known
    · rw [failed] at unknown
      exact ⟨Except.error.inj unknown, record, other, listed, common, illTyped⟩

/-- A check of an argument that is traced to a sanitized value is silent, or it fails as
the trace does or at the rule of another sanitizer. -/
theorem checkArgument_sanitized
    (traced : Concludes program memory (traceInPlace expression)
      (fun deps _ => Sanitized (normalizeName sanitizer) deps) fun _ _ => True)
    (strong : protectionBy program.rules sink.vulnerability sanitizer = .ok .strong) :
    Concludes program memory (checkArgument includeUnknown node sink (some expression))
      (fun found _ => found = none)
      (fun fault after => traceInPlace expression program memory = .error fault after ∨
        ∃ deps middle, traceInPlace expression program memory = .ok deps middle ∧
          fault = .illTyped ∧ SharesIllTyped program.rules sink.vulnerability deps) := by
  simp only [checkArgument, Concludes.bind_iff]
  unfold Concludes at traced ⊢
  cases run : traceInPlace expression program memory with
  | error fault after => exact Or.inl rfl
  | ok deps middle =>
      rw [run] at traced
      refine (judgeLeaves_sanitized traced strong).mono ?_ ?_
      · intro verdict final nothing
        rw [nothing]
        exact rfl
      · exact fun fault final failed => Or.inr ⟨deps, middle, rfl, failed⟩

end Checks

variable {roots : List Node} {ends : List ScopeId} {annotator : Annotation.Annotator}

/-- A function that returns nothing but calls of a strong sanitizer protects like the
sanitizer. Whatever it is given, every leaf of what it returns has passed through the
sanitizer, and a check of a call of it makes no finding; it fails only if the trace does
or if the rule of another sanitizer is ill-typed. Functions are found by their keys, so
no other function may have the key of the wrapper. -/
theorem wrapper_protects_like_sanitizer
    (annotated : roots.mapM Annotation.annotateProgram Annotation.Annotator.start =
      .ok ends annotator) (rules : RuleSet) {vulnerability : Scalar} {sanitizer : String}
    (strong : protectionBy rules vulnerability sanitizer = .ok .strong) {wrapper : Node}
    (wraps : Wraps (Program.ofAnnotated annotator rules roots) sanitizer wrapper)
    (apart : forall other, DeclaredIn (nodesOf roots) other -> other.key = wrapper.key ->
      other = wrapper) {memory : Memory}
    (arises : Arises (Program.ofAnnotated annotator rules roots) (DeclaredIn (nodesOf roots)) memory)
    (idle : wrapper.key ∉ memory.inProgress) :
    let program := Program.ofAnnotated annotator rules roots
    (forall depth arguments deps after,
      (summaryOf (traceWithin depth) wrapper >>= fun summary =>
        callDependencies (traceWithin depth) summary arguments) program memory = .ok deps after ->
        Sanitized (normalizeName sanitizer) deps) ∧
    forall call, calledFunction? program call = some wrapper ->
      (forall depth deps after, memory.tracer.followsCalls = true ->
        traceWithin depth call program memory = .ok deps after ->
          Sanitized (normalizeName sanitizer) deps) ∧
      forall includeUnknown node sink, sink.vulnerability = vulnerability ->
        let checked := checkArgument includeUnknown node sink (some call) program memory
        (∃ after, checked = .ok none after) ∨
        (∃ fault after, traceInPlace call program memory = .error fault after ∧
          checked = .error fault after) ∨
        ∃ deps middle after, traceInPlace call program memory = .ok deps middle ∧
          SharesIllTyped rules vulnerability deps ∧ checked = .error .illTyped after := by
  intro program
  have grounded : Grounded (nodesOf roots) program := Grounded.of_annotated annotated rules
  have calls := grounded.callsDeclared
  have isSanitizer : program.rules.isSanitizer sanitizer = true := isSanitizer_of_protectionBy strong
  refine ⟨?_, fun call called => ⟨?_, ?_⟩⟩
  · intro depth arguments deps after ended
    exact (wrapper_callDependencies_sanitized grounded calls isSanitizer wraps apart arises depth
      arguments).of_ok ended
  · intro depth deps after follows ended
    exact (wrapper_call_sanitized grounded calls isSanitizer wraps apart arises called follows idle
      depth).of_ok ended
  · rintro includeUnknown node sink rfl checked
    have started := arises.underTracer (Tracer.fresh [] true)
    have traced : Concludes program memory (traceInPlace call)
        (fun deps _ => Sanitized (normalizeName sanitizer) deps) fun _ _ => True := by
      simp only [traceInPlace, Concludes.bind_iff, Concludes.withTracer_iff, Concludes.pure_iff]
      exact wrapper_call_sanitized grounded calls isSanitizer wraps apart started called rfl idle
        program.depth
    have concludes : Concludes program memory
        (checkArgument includeUnknown node sink (some call)) _ _ :=
      checkArgument_sanitized traced strong
    cases run : checkArgument includeUnknown node sink (some call) program memory with
    | ok found after =>
        obtain rfl := concludes.of_ok run
        exact Or.inl ⟨after, run⟩
    | error fault after =>
        rcases concludes.of_error run with failed | ⟨deps, middle, traces, rfl, shares⟩
        · exact Or.inr (Or.inl ⟨fault, after, failed, run⟩)
        · exact Or.inr (Or.inr ⟨deps, middle, after, traces, shares, run⟩)

/-- A file that declares a function of one parameter, and prints what a call of it
returns for the input `$_GET`. -/
def unaryFile (name code : String) (stop : Nat) (returns : List Tree) : Node :=
  ⟨⟨name, code.toUTF8⟩, .node "program" true 0 (stop + 15) "" [
    .node "function_definition" true 6 stop "" [
      .node "name" true 15 16 "name" [],
      .node "formal_parameters" true 16 20 "parameters" [
        .node "simple_parameter" true 17 19 "" [.node "variable_name" true 17 19 "name" []]],
      .node "compound_statement" true 21 stop "body" returns],
    .node "echo_statement" true (stop + 1) (stop + 15) "" [
      shortCall "" (stop + 6) (stop + 14) (inputAt (stop + 8))]]⟩

/-- The call in a `unaryFile`. -/
def printedCall (file : Node) (stop : Nat) : Node :=
  file.withTree (shortCall "" (stop + 6) (stop + 14) (inputAt (stop + 8)))

/-- The file `<?php function w($a) { return; return e(w($a) . $a); } echo w($_GET);`. -/
def wrappingFile : Node :=
  unaryFile "wrap.php"
    "<?php function w($a) \x7b return; return e(w($a) . $a); \x7d echo w($_GET);" 54 [
    .node "return_statement" true 23 30 "" [],
    .node "return_statement" true 31 52 "" [
      shortCall "" 38 51 (.node "binary_expression" true 40 50 "" [
        shortCall "left" 40 45 (.node "variable_name" true 42 44 "" []),
        .node "variable_name" true 48 50 "right" []])]]

/-- The wrapper in `wrappingFile` calls itself. A second check of its call finds the
summary that the first one left, with an unknown leaf for the call inside, and is silent,
also if unknown leaves are reported. -/
theorem wrapper_protects_like_sanitizer_recursive :
    let call := printedCall wrappingFile 54
    ∃ ends annotator, [wrappingFile].mapM Annotation.annotateProgram
        Annotation.Annotator.start = .ok ends annotator ∧
      let program := Program.ofAnnotated annotator twoSanitizerRules [wrappingFile]
      let check := checkArgument true wrappingFile echoSink (some call) program
      let memory := (Ending.memory (check Memory.start)).withTracer (Tracer.fresh [] true)
      ∃ wrapper, calledFunction? program call = some wrapper ∧ Wraps program "e" wrapper ∧
        memory.summaries.contains wrapper.key = true ∧
        (∃ deps after, traceWithin program.depth call program memory = .ok deps after ∧
          deps.keys = ["w()", "$_GET"] ∧ Sanitized "e" deps) ∧
        ∃ after, check memory = .ok none after := by
  intro call
  have distinct : KeysDistinct [wrappingFile] := by
    unfold KeysDistinct
    decide +kernel
  have ran : Outcome.passes (fun _ annotator =>
      let program := Program.ofAnnotated annotator twoSanitizerRules [wrappingFile]
      let check := checkArgument true wrappingFile echoSink (some call) program
      let memory := (Ending.memory (check Memory.start)).withTracer (Tracer.fresh [] true)
      ((calledFunction? program call).any fun wrapper =>
        (returnedValues wrapper).all (isSanitizingCall program "e") &&
          memory.summaries.contains wrapper.key) &&
      memory.inProgress.isEmpty &&
      Outcome.passes (fun deps _ => decide (deps.keys = ["w()", "$_GET"]))
        (traceWithin program.depth call program memory) &&
      Outcome.passes (fun _ _ => true) (check memory))
      ([wrappingFile].mapM Annotation.annotateProgram Annotation.Annotator.start) = true := by
    decide +kernel
  obtain ⟨ends, annotator, outcome, held⟩ := Outcome.exists_of_passes ran
  refine ⟨ends, annotator, outcome, ?_⟩
  intro program check memory
  simp only [Bool.and_eq_true] at held
  obtain ⟨⟨⟨found, idle⟩, traced⟩, ended⟩ := held
  obtain ⟨wrapper, called, wraps⟩ := (Option.any_eq_true _ _).1 found
  simp only [Bool.and_eq_true, List.all_eq_true] at wraps
  obtain ⟨wraps, kept⟩ := wraps
  obtain ⟨deps, traceEnd, traced, keys⟩ := Outcome.exists_of_passes traced
  obtain ⟨result, checkEnd, ended, _⟩ := Outcome.exists_of_passes ended
  have grounded : Grounded (nodesOf [wrappingFile]) program :=
    Grounded.of_annotated outcome twoSanitizerRules
  obtain ⟨_, callee, scope, _, located, resolved⟩ := of_calledFunction?_eq_some called
  have declares := grounded.callsDeclared call scope callee.text wrapper located resolved
  have sanitizing : Wraps program "e" wrapper := fun value listed => .of_check (wraps value listed)
  have arises : Arises program (DeclaredIn (nodesOf [wrappingFile])) memory :=
    (arises_checkArgument .start (some call)).underTracer _
  have strong : protectionBy twoSanitizerRules (.text "XSS") "e" = .ok .strong := by rfl
  obtain ⟨_, followed⟩ := wrapper_protects_like_sanitizer outcome twoSanitizerRules
    strong sanitizing
    (fun other declared same => distinct.eq_of_key_eq declared.1 declares.1 same) arises
    (by rw [List.isEmpty_iff.1 idle]; exact List.not_mem_nil)
  obtain ⟨traces, checks⟩ := followed call called
  refine ⟨wrapper, called, sanitizing, kept, ⟨deps, traceEnd, traced, of_decide_eq_true keys, ?_⟩, ?_⟩
  · have spelled : normalizeName "e" = "e" := by decide +kernel
    rw [← spelled]
    exact traces program.depth deps traceEnd rfl traced
  · rcases checks true wrappingFile echoSink rfl with silent | ⟨_, _, _, failed⟩ | ⟨_, _, _, _, _, failed⟩
    · exact silent
    all_goals
      rw [show checkArgument true wrappingFile echoSink (some call) program memory = _ from ended]
        at failed
      cases failed

/-- The file `<?php function g($a) { return $a;    } echo g($_GET);`. -/
def plainTwin : Node :=
  unaryFile "twin.php" "<?php function g($a) \x7b return $a;    \x7d echo g($_GET);" 38 [
    .node "return_statement" true 23 33 "" [.node "variable_name" true 30 32 "" []]]

/-- The file `<?php function f($a) { return e($a); } echo f($_GET);`. -/
def escapingTwin : Node :=
  unaryFile "twin.php" "<?php function f($a) \x7b return e($a); \x7d echo f($_GET);" 38 [
    .node "return_statement" true 23 36 "" [
      shortCall "" 30 35 (.node "variable_name" true 32 34 "" [])]]

/-- Two files of one name declare functions with one key, and only the second function
wraps the sanitizer. After a check of the call of the first one, the call of the second is
answered from the summary of the first: its value has not passed through the sanitizer, and
the check of it has a finding. -/
theorem wrapper_loses_sanitizer_twin :
    let call := printedCall escapingTwin 38
    ∃ ends annotator, [plainTwin, escapingTwin].mapM Annotation.annotateProgram
        Annotation.Annotator.start = .ok ends annotator ∧
      let program := Program.ofAnnotated annotator twoSanitizerRules [plainTwin, escapingTwin]
      let check := fun file =>
        checkArgument false file echoSink (some (printedCall file 38)) program
      let memory := Ending.memory (check plainTwin Memory.start)
      protectionBy twoSanitizerRules echoSink.vulnerability "e" = .ok .strong ∧
      Arises program (DeclaredIn (nodesOf [plainTwin, escapingTwin])) memory ∧
      ∃ wrapper, calledFunction? program call = some wrapper ∧ Wraps program "e" wrapper ∧
        wrapper.key ∉ memory.inProgress ∧
        (∃ deps after, traceInPlace call program memory = .ok deps after ∧ ¬ Sanitized "e" deps) ∧
        ∃ finding after, check escapingTwin memory = .ok (some finding) after := by
  intro call
  have ran : Outcome.passes (fun _ annotator =>
      let program := Program.ofAnnotated annotator twoSanitizerRules [plainTwin, escapingTwin]
      let check := fun file =>
        checkArgument false file echoSink (some (printedCall file 38)) program
      let memory := Ending.memory (check plainTwin Memory.start)
      ((calledFunction? program call).any fun wrapper =>
        (returnedValues wrapper).all (isSanitizingCall program "e")) &&
      memory.inProgress.isEmpty &&
      Outcome.passes (fun deps _ => deps.entries.any fun entry => decide ("e" ∉ entry.2.common))
        (traceInPlace call program memory) &&
      Outcome.passes (fun found _ => found.isSome) (check escapingTwin memory))
      ([plainTwin, escapingTwin].mapM Annotation.annotateProgram Annotation.Annotator.start) =
        true := by
    decide +kernel
  obtain ⟨ends, annotator, outcome, held⟩ := Outcome.exists_of_passes ran
  refine ⟨ends, annotator, outcome, ?_⟩
  intro program check memory
  simp only [Bool.and_eq_true] at held
  obtain ⟨⟨⟨found, idle⟩, traced⟩, checked⟩ := held
  obtain ⟨wrapper, called, wraps⟩ := (Option.any_eq_true _ _).1 found
  obtain ⟨deps, traceEnd, traced, bare⟩ := Outcome.exists_of_passes traced
  obtain ⟨entry, listed, missing⟩ := List.any_eq_true.1 bare
  obtain ⟨result, checkEnd, ended, some⟩ := Outcome.exists_of_passes checked
  obtain ⟨finding, rfl⟩ := Option.isSome_iff_exists.1 some
  refine ⟨by rfl, arises_checkArgument .start _, wrapper, called, ?_, ?_,
    ⟨deps, traceEnd, traced, ?_⟩, finding, checkEnd, ended⟩
  · exact fun value listed => .of_check (List.all_eq_true.1 wraps value listed)
  · rw [List.isEmpty_iff.1 idle]
    exact List.not_mem_nil
  · intro sanitized
    exact of_decide_eq_true missing
      (sanitized entry.1 entry.2 (Table.find?_eq_some_of_mem listed))

end PhpTaint.Findings
