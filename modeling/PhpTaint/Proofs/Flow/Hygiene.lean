import PhpTaint.Proofs.Flow.Attribution
import PhpTaint.Proofs.Flow.Backward
import PhpTaint.Proofs.Flow.Binding

/-!
# A parameter that is not read does not matter

A function that does not read one of its parameters gives the same verdict whatever
is passed for it, if the name of the parameter is uncaptured: no leaf of that name
comes from a function for which it is something else. Without that condition the
verdict can depend on the argument, since a leaf of a called function is taken for the
parameter of the caller that has its name.
-/

namespace PhpTaint.Flow

open Scopes Syntax Rules
open Forward (escapingRules)

/-- Arguments that are bound alike, one name apart. -/
def AlikeBeside (name : String) (first second : Table String Deps) : Prop :=
  forall other, other ≠ name -> first.find? other = second.find? other

section Beside

variable {name : String} {first second : Table String Deps}

theorem AlikeBeside.symm (alike : AlikeBeside name first second) : AlikeBeside name second first :=
  fun other different => (alike other different).symm

theorem AlikeBeside.trans {third : Table String Deps} (alike : AlikeBeside name first second)
    (more : AlikeBeside name second third) : AlikeBeside name first third :=
  fun other different => (alike other different).trans (more other different)

theorem find?_bindName (arguments : Table String Deps) (parameter other : String) (deps : Deps) :
    (bindName arguments parameter deps).find? other =
      if other = parameter then
        some (((arguments.find? parameter).map fun earlier =>
          Dependencies.mergeTwo earlier deps).getD deps)
      else arguments.find? other := by
  unfold bindName
  split
  · rename_i earlier present
    rw [Table.find?_insert, present]
    rfl
  · rename_i missing
    rw [Table.find?_insert, missing]
    rfl

/-- What goes to one parameter may be left out where that parameter does not count. -/
theorem AlikeBeside.foldl_bindHanded (passed : List (Option String × Deps))
    (alike : AlikeBeside name first second) :
    AlikeBeside name (passed.foldl bindHanded first)
      ((passed.filter fun handed => handed.1 ≠ some name).foldl bindHanded second) := by
  induction passed generalizing first second with
  | nil => exact alike
  | cons handed rest inductionHypothesis =>
      obtain ⟨receiver, deps⟩ := handed
      by_cases here : receiver = some name
      · have dropped : AlikeBeside name (bindHanded first (receiver, deps)) second := by
          intro other different
          rw [here]
          show (bindName first name deps).find? other = _
          rw [find?_bindName, if_neg different]
          exact alike other different
        rw [List.foldl_cons, List.filter_cons_of_neg (by simp [here])]
        exact inductionHypothesis dropped
      · have bound : AlikeBeside name (bindHanded first (receiver, deps))
            (bindHanded second (receiver, deps)) := by
          intro other different
          cases receiver with
          | none => exact alike other different
          | some parameter =>
              have apart : parameter ≠ name := fun same => here (congrArg some same)
              show (bindName first parameter deps).find? other =
                (bindName second parameter deps).find? other
              rw [find?_bindName, find?_bindName, alike parameter apart, alike other different]
        rw [List.foldl_cons, List.filter_cons_of_pos (by simp [here]), List.foldl_cons]
        exact inductionHypothesis bound

/-- A call does not depend on what is bound to a name that is no leaf of the summary. -/
theorem substitute_eq_of_alikeBeside {summary : Summary} (alike : AlikeBeside name first second)
    (absent : forall line deps, summary.returns.find? line = some deps -> name ∉ deps.keys) :
    substitute summary first = substitute summary second := by
  unfold substitute
  congr 1
  refine List.flatMap_congr fun deps listed => List.flatMap_congr fun entry inLine => ?_
  obtain ⟨line, inTable, rfl⟩ := List.mem_map.1 listed
  have other : entry.1 ≠ name := by
    intro same
    refine absent line.1 line.2 (Table.find?_eq_some_of_mem inTable) ?_
    rw [← same]
    exact List.mem_map_of_mem inLine
  unfold substituteLeaf
  rw [alike entry.1 other]

end Beside

/-- The verdict on a call with positional arguments, from what is handed over. -/
theorem analyseCall_handed {program : Program} {memory after : Memory} {summary : Summary}
    {arguments values : List Node} {passed : List (Option String × Deps)}
    (positional : List.Forall₂ Positional arguments values)
    (traced : traceHanded (visitor program.depth).trace (handedOver summary.declaration values)
      program (memory.withTracer (Tracer.fresh [] true)) = .ok passed after) :
    analyseCall summary arguments program memory =
      .ok (substitute summary (passed.foldl bindHanded ∅)).summarize
        (after.withTracer memory.tracer) := by
  have called : summaryCall summary arguments program
      (memory.withTracer (Tracer.fresh [] true)) =
        .ok (substitute summary (passed.foldl bindHanded ∅)) after := by
    show callDependencies (visitor program.depth).trace summary arguments program _ = _
    unfold callDependencies
    rw [run_bind_ok (bindArguments_handed positional traced)]
    rfl
  have kept : withTracer (Tracer.fresh [] true) (summaryCall summary arguments) program memory =
      .ok (substitute summary (passed.foldl bindHanded ∅), after.tracer)
        (after.withTracer memory.tracer) := by
    unfold withTracer
    rw [show summaryCall summary arguments program { memory with tracer := Tracer.fresh [] true } =
      _ from called]
    rfl
  unfold analyseCall
  rw [run_bind_ok kept]
  rfl

section SelfContained

variable {program : Program} {nodes : List Node} {name : String} {keys : List Key}

/-- Whether an expression reads only parameters of a function and is no leaf of some
name by itself. -/
def readsOwn (program : Program) (name : String) (declaration node : Node) : Bool :=
  (node.form ≠ .variableName || declaration.parameterNames.contains node.text &&
    !program.rules.isInputVariable node.text) &&
  leafName? program.rules node ≠ some name &&
  match calleeOf program.rules node with
  | .named callee => normalizeName callee.text ++ "()" ≠ name
  | _ => true

/-- Whether an expression calls only functions with the given keys, and leaves them no
default value to fall back on. -/
def callsWithin (program : Program) (nodes : List Node) (keys : List Key) (node : Node) : Bool :=
  (calledFunction? program node).all fun target => keys.contains target.key &&
    nodes.all fun declaration =>
      declaration.key ≠ target.key || (unfilledDefaults declaration node.arguments).isEmpty

/-- Whether the functions with the given keys read only their parameters and call only
each other. -/
def selfContained (program : Program) (nodes : List Node) (name : String) (keys : List Key) :
    Bool :=
  nodes.all fun declaration => !keys.contains declaration.key ||
    (declaration.child? "body").all fun body => body.preorder.all fun node =>
      readsOwn program name declaration node && callsWithin program nodes keys node

theorem of_selfContained (contained : selfContained program nodes name keys = true)
    {declaration body node : Node} (member : declaration ∈ nodes)
    (listed : declaration.key ∈ keys) (found : declaration.child? "body" = some body)
    (inside : node ∈ body.preorder) :
    readsOwn program name declaration node = true ∧ callsWithin program nodes keys node = true := by
  have held := List.all_eq_true.1 contained declaration member
  rw [List.contains_iff_mem.2 listed, found] at held
  simpa using List.all_eq_true.1 held node inside

/-- What a function returns stands in its body. -/
theorem inBody_of_mem_returnedValues {declaration value : Node}
    (returned : value ∈ returnedValues declaration) :
    ∃ body, declaration.child? "body" = some body ∧ value ∈ body.preorder := by
  obtain ⟨⟨line, _⟩, listed, rfl⟩ := List.mem_map.1 returned
  unfold returnedOn at listed
  cases found : declaration.child? "body" with
  | none =>
      rw [found] at listed
      cases listed
  | some body =>
      refine ⟨body, rfl, ?_⟩
      rw [found] at listed
      simp only at listed
      split at listed
      · cases List.mem_singleton.1 listed
        exact Node.self_mem_preorder _
      · obtain ⟨statement, inReturns, chosen⟩ := List.mem_filterMap.1 listed
        obtain ⟨_, picked, same⟩ := Option.map_eq_some_iff.1 chosen
        cases same
        have inside := (Node.Inside.of_mem_namedChildren (List.mem_of_find?_eq_some picked)).mem_preorder
        obtain ⟨tree, walked, rfl⟩ := List.mem_map.1 inReturns
        obtain ⟨root, isBody, below⟩ :=
          Tree.mem_preorder_of_mem_walkPruned (List.mem_filter.1 walked).1
        cases List.mem_singleton.1 isBody
        exact Node.mem_preorder_trans inside (List.mem_map.2 ⟨tree, below, rfl⟩)

/-- Self-contained functions meet nothing outside their bodies. -/
theorem inBody_of_meets {start context : Node} {site : Site}
    (contained : selfContained program nodes name keys = true) (member : start ∈ nodes)
    (listed : start.key ∈ keys) (met : Meets program nodes start context site) :
    (context ∈ nodes ∧ context.key ∈ keys) ∧ ∃ node body, site = .expression node ∧
      context.child? "body" = some body ∧ node ∈ body.preorder := by
  induction met with
  | returned returned =>
      obtain ⟨body, found, inside⟩ := inBody_of_mem_returnedValues returned
      exact ⟨⟨member, listed⟩, _, body, rfl, found, inside⟩
  | @use context _ _ _ step free inductionHypothesis =>
      obtain ⟨⟨member, listed⟩, node, body, rfl, found, inside⟩ := inductionHypothesis
      refine ⟨⟨member, listed⟩, ?_⟩
      cases step with
      | part isPart =>
          exact ⟨_, body, rfl, found, Node.mem_preorder_trans
            (inside_of_mem_valueParts isPart).mem_preorder inside⟩
      | read reads =>
          have own := (of_selfContained contained member listed found inside).1
          simp only [readsOwn, reads.isVariable, ne_eq, not_true_eq_false, decide_false,
            Bool.false_or, Bool.and_eq_true] at own
          exact absurd (List.contains_iff_mem.1 own.1.1.1) (free _ _ rfl)
  | @flow context node next _ step inductionHypothesis =>
      obtain ⟨⟨member, listed⟩, other, body, same, found, inside⟩ := inductionHypothesis
      cases same
      refine ⟨⟨member, listed⟩, ?_⟩
      cases step with
      | part _ isPart =>
          exact ⟨_, body, rfl, found, Node.mem_preorder_trans
            (inside_of_mem_valueParts isPart).mem_preorder inside⟩
      | argument _ isArgument passed =>
          exact ⟨_, body, rfl, found, Node.mem_preorder_trans
            ((Node.Inside.of_mem_arguments isArgument).of_argumentValue passed).mem_preorder inside⟩
      | @fallback target declaration _ called declared sameKey unfilled =>
          have calls := (of_selfContained contained member listed found inside).2
          simp only [callsWithin, called, Option.all_some, Bool.and_eq_true] at calls
          have none := List.all_eq_true.1 calls.2 declaration declared
          simp only [sameKey, ne_eq, not_true_eq_false, decide_false, Bool.false_or,
            List.isEmpty_iff] at none
          rw [none] at unfilled
          cases unfilled
  | @body context node target declaration value _ called declared sameKey returned inductionHypothesis =>
      obtain ⟨⟨member, listed⟩, other, body, same, found, inside⟩ := inductionHypothesis
      cases same
      have calls := (of_selfContained contained member listed found inside).2
      simp only [callsWithin, called, Option.all_some, Bool.and_eq_true] at calls
      obtain ⟨inner, has, within⟩ := inBody_of_mem_returnedValues returned
      refine ⟨⟨declared, ?_⟩, _, inner, rfl, has, within⟩
      rw [sameKey]
      exact List.contains_iff_mem.1 calls.1

/-- Self-contained functions capture no name. -/
theorem Uncaptured.of_selfContained {start : Node}
    (contained : selfContained program nodes name keys = true) (member : start ∈ nodes)
    (listed : start.key ∈ keys) : Uncaptured program nodes name start := by
  intro context site met names
  obtain ⟨⟨member, listed⟩, node, body, rfl, found, inside⟩ :=
    inBody_of_meets contained member listed met
  have own := (Flow.of_selfContained contained member listed found inside).1
  simp only [readsOwn, Bool.and_eq_true, decide_eq_true_eq] at own
  -- a variable of the body is a parameter
  have reads : node.form = .variableName -> node.text = name ->
      OwnRead program.rules context name node := by
    rintro isVariable rfl
    simp only [isVariable, ne_eq, not_true_eq_false, decide_false, Bool.false_or,
      Bool.and_eq_true, Bool.not_eq_true'] at own
    exact ⟨isVariable, rfl, List.contains_iff_mem.1 own.1.1.1, own.1.1.2, body, found, inside⟩
  refine ⟨node, rfl, ?_⟩
  cases names with
  | parameter isVariable _ => exact reads isVariable rfl
  | recursion _ named =>
      rw [named] at own
      exact absurd rfl (of_decide_eq_true own.2)
  | leaf isLeaf =>
      cases isLeaf with
      | expression named => exact absurd named own.1.2
      | input isVariable _ => exact reads isVariable rfl
      | unbound reading => exact reads reading.isVariable rfl

end SelfContained

/-- A function that does not read a parameter, and in which the name of the parameter
is uncaptured, gives one verdict on any two calls that hand over the same for all
other parameters: the same dependencies of the arguments and of the default values
that the calls fall back on. Whatever was traced before does not matter. -/
theorem analyseCall_ignores_unread {roots : List Node} {ends : List ScopeId}
    {annotator : Annotation.Annotator}
    (annotated : roots.mapM Annotation.annotateProgram Annotation.Annotator.start =
      .ok ends annotator) (rules : RuleSet) {before built : Memory} {declaration : Node}
    (reached : Reached (Program.ofAnnotated annotator rules roots) (nodesOf roots) before)
    (member : declaration ∈ nodesOf roots) {summary : Summary}
    (summarized : summarizeFunction declaration (Program.ofAnnotated annotator rules roots) before =
      .ok summary built) {name : String}
    (unread : forall body, summary.declaration.child? "body" = some body ->
      forall node, node ∈ body.preorder -> node.form = .variableName -> node.text ≠ name)
    (uncaptured : Uncaptured (Program.ofAnnotated annotator rules roots) (nodesOf roots) name
      summary.declaration) :
    let program := Program.ofAnnotated annotator rules roots
    forall memory after arguments values passed otherMemory otherAfter otherArguments otherValues
        otherPassed,
      List.Forall₂ Positional arguments values ->
      List.Forall₂ Positional otherArguments otherValues ->
      traceHanded (visitor program.depth).trace (handedOver summary.declaration values) program
        (memory.withTracer (Tracer.fresh [] true)) = .ok passed after ->
      traceHanded (visitor program.depth).trace (handedOver summary.declaration otherValues) program
        (otherMemory.withTracer (Tracer.fresh [] true)) = .ok otherPassed otherAfter ->
      passed.filter (fun handed => handed.1 ≠ some name) =
        otherPassed.filter (fun handed => handed.1 ≠ some name) ->
      ∃ verdict final otherFinal,
        analyseCall summary arguments program memory = .ok verdict final ∧
        analyseCall summary otherArguments program otherMemory = .ok verdict otherFinal := by
  intro program memory after arguments values passed otherMemory otherAfter otherArguments
    otherValues otherPassed positional otherPositional traced otherTraced same
  have own := (summarizeFunction_own (Grounded.of_annotated annotated rules) reached member
    summarized name).2 uncaptured
  have absent : forall line deps, summary.returns.find? line = some deps -> name ∉ deps.keys := by
    intro line deps found listed
    obtain ⟨record, held⟩ := (Table.mem_keys_iff deps name).1 listed
    obtain ⟨_, node, _, read⟩ := own line deps found record held
    obtain ⟨body, hasBody, inBody⟩ := read.inBody
    exact unread body hasBody node inBody read.reads read.named
  have alike : AlikeBeside name (passed.foldl bindHanded ∅) (otherPassed.foldl bindHanded ∅) := by
    have one := AlikeBeside.foldl_bindHanded passed (fun _ _ => rfl : AlikeBeside name ∅ ∅)
    have other := AlikeBeside.foldl_bindHanded otherPassed (fun _ _ => rfl : AlikeBeside name ∅ ∅)
    rw [same] at one
    exact one.trans other.symm
  have verdict := analyseCall_handed positional traced
  rw [substitute_eq_of_alikeBeside alike absent] at verdict
  exact ⟨_, _, _, verdict, analyseCall_handed otherPositional otherTraced⟩

/-- The function that is called, in `ownParameterFile`. -/
def ownParameterCallee : Tree :=
  .node "function_definition" true 6 35 "" [
    .node "name" true 15 16 "name" [],
    .node "formal_parameters" true 16 20 "parameters" [
      .node "simple_parameter" true 17 19 "" [.node "variable_name" true 17 19 "name" []]],
    .node "compound_statement" true 21 35 "body" [
      .node "return_statement" true 23 33 "" [.node "variable_name" true 30 32 "" []]]]

/-- The function with a parameter that it does not read, in `ownParameterFile`. -/
def ownParameterCaller : Tree :=
  .node "function_definition" true 36 72 "" [
    .node "name" true 45 46 "name" [],
    .node "formal_parameters" true 46 54 "parameters" [
      .node "simple_parameter" true 47 49 "" [.node "variable_name" true 47 49 "name" []],
      .node "simple_parameter" true 51 53 "" [.node "variable_name" true 51 53 "name" []]],
    .node "compound_statement" true 55 72 "body" [
      .node "return_statement" true 57 70 "" [
        .node "function_call_expression" true 64 69 "" [
          .node "name" true 64 65 "function" [],
          .node "arguments" true 65 69 "arguments" [
            .node "argument" true 66 68 "" [.node "variable_name" true 66 68 "" []]]]]]]

/-- The call with an input for the first parameter, in `ownParameterFile`. -/
def ownParameterInput : Tree :=
  .node "function_call_expression" true 73 84 "" [
    .node "name" true 73 74 "function" [],
    .node "arguments" true 74 84 "arguments" [
      .node "argument" true 75 80 "" [.node "variable_name" true 75 80 "" []],
      .node "argument" true 82 83 "" [.node "integer" true 82 83 "" []]]]

/-- The call with a number for the first parameter, in `ownParameterFile`. -/
def ownParameterNumber : Tree :=
  .node "function_call_expression" true 86 93 "" [
    .node "name" true 86 87 "function" [],
    .node "arguments" true 87 93 "arguments" [
      .node "argument" true 88 89 "" [.node "integer" true 88 89 "" []],
      .node "argument" true 91 92 "" [.node "integer" true 91 92 "" []]]]

/-- The file `<?php function g($p) { return $p; } function f($p, $q) { return g($q); }
f($_GET, 2); f(1, 2);`. -/
def ownParameterFile : Node :=
  ⟨⟨"own.php", ("<?php function g($p) \x7b return $p; \x7d function f($p, $q) " ++
      "\x7b return g($q); \x7d f($_GET, 2); f(1, 2);").toUTF8⟩,
    .node "program" true 0 94 "" [
      ownParameterCallee, ownParameterCaller,
      .node "expression_statement" true 73 85 "" [ownParameterInput],
      .node "expression_statement" true 86 94 "" [ownParameterNumber]]⟩

/-- The leaves that are handed over, by parameter. -/
def shownPassed (passed : List (Option String × Deps)) : List (Option String × List String) :=
  passed.map fun handed => (handed.1, handed.2.keys)

/-- One parameter that nothing flows to. -/
theorem eq_of_shownPassed {passed : List (Option String × Deps)} {receiver : Option String}
    (shown : shownPassed passed = [(receiver, [])]) : passed = [(receiver, ∅)] := by
  obtain ⟨⟨other, deps⟩, rfl, same⟩ := List.map_eq_singleton_iff.1 shown
  obtain ⟨rfl, keys⟩ := Prod.mk.inj same
  rw [show deps = ∅ from Table.ext (List.map_eq_nil_iff.1 keys)]

/-- The second function of `ownParameterFile` does not read `$p`, the function that it
calls does so as its own parameter. An input and a number for `$p` give one verdict. -/
theorem analyseCall_ignores_unread_own_parameter :
    let declaration := ownParameterFile.withTree ownParameterCaller
    let inputs := (ownParameterFile.withTree ownParameterInput).arguments
    let numbers := (ownParameterFile.withTree ownParameterNumber).arguments
    ∃ ends annotator, [ownParameterFile].mapM Annotation.annotateProgram
        Annotation.Annotator.start = .ok ends annotator ∧
      let program := Program.ofAnnotated annotator escapingRules [ownParameterFile]
      Uncaptured program (nodesOf [ownParameterFile]) "$p" declaration ∧
      ∃ summary built verdict final otherFinal,
        summarizeFunction declaration program Memory.start = .ok summary built ∧
        analyseCall summary inputs program built = .ok verdict final ∧
        analyseCall summary numbers program built = .ok verdict otherFinal ∧
        verdict = (.unassigned, ∅) := by
  intro declaration inputs numbers
  let values := inputs.flatMap Node.namedChildren
  let otherValues := numbers.flatMap Node.namedChildren
  have ran : Outcome.passes (fun _ annotator =>
      let program := Program.ofAnnotated annotator escapingRules [ownParameterFile]
      selfContained program (nodesOf [ownParameterFile]) "$p"
        [(ownParameterFile.withTree ownParameterCallee).key, declaration.key] &&
      Outcome.passes (fun summary built =>
        Outcome.passes (fun passed _ =>
            decide (shownPassed (passed.filter fun handed => handed.1 ≠ some "$p") = [(some "$q", [])]))
          (traceHanded (visitor program.depth).trace (handedOver declaration values) program
            (built.withTracer (Tracer.fresh [] true))) &&
        Outcome.passes (fun passed _ =>
            decide (shownPassed (passed.filter fun handed => handed.1 ≠ some "$p") = [(some "$q", [])]))
          (traceHanded (visitor program.depth).trace (handedOver declaration otherValues) program
            (built.withTracer (Tracer.fresh [] true))) &&
        Outcome.passes (fun verdict _ => decide (verdict = (.unassigned, ∅)))
          (analyseCall summary inputs program built))
        (summarizeFunction declaration program Memory.start))
      ([ownParameterFile].mapM Annotation.annotateProgram Annotation.Annotator.start) = true := by
    decide +kernel
  obtain ⟨ends, annotator, outcome, held⟩ := Outcome.exists_of_passes ran
  refine ⟨ends, annotator, outcome, ?_⟩
  intro program
  simp only [Bool.and_eq_true] at held
  obtain ⟨contained, summarized⟩ := held
  obtain ⟨summary, built, summarizes, held⟩ := Outcome.exists_of_passes summarized
  simp only [Bool.and_eq_true] at held
  obtain ⟨⟨handed, otherHanded⟩, clean⟩ := held
  obtain ⟨passed, after, traced, shown⟩ := Outcome.exists_of_passes handed
  obtain ⟨otherPassed, otherAfter, otherTraced, otherShown⟩ := Outcome.exists_of_passes otherHanded
  have member : declaration ∈ nodesOf [ownParameterFile] :=
    mem_nodesOf_of_mem_children (mem_nodesOf_of_root (List.mem_cons_self ..))
      (List.mem_cons_of_mem _ (List.mem_cons_self ..))
  have distinct : KeysDistinct [ownParameterFile] := by
    unfold KeysDistinct
    decide +kernel
  have same : summary.declaration = declaration := by
    obtain ⟨⟨declared, sameKey⟩, _⟩ := summarizeFunction_own
      (Grounded.of_annotated outcome escapingRules) .start member summarizes "$p"
    exact distinct.eq_of_key_eq declared member sameKey
  have uncaptured : Uncaptured program (nodesOf [ownParameterFile]) "$p" declaration :=
    .of_selfContained contained member (List.mem_cons_of_mem _ (List.mem_cons_self ..))
  have unread : forall body, declaration.child? "body" = some body -> forall node,
      node ∈ body.preorder -> node.form = .variableName -> node.text ≠ "$p" := by
    have checked : (declaration.child? "body").all (fun body => body.preorder.all fun node =>
        node.form ≠ .variableName || node.text ≠ "$p") = true := by
      decide +kernel
    intro body found node inside reads
    rw [found] at checked
    simpa [reads] using List.all_eq_true.1 checked node inside
  have positional : List.Forall₂ Positional inputs values :=
    .cons ⟨rfl, rfl, by decide⟩ (.cons ⟨rfl, rfl, by decide⟩ .nil)
  have otherPositional : List.Forall₂ Positional numbers otherValues :=
    .cons ⟨rfl, rfl, by decide⟩ (.cons ⟨rfl, rfl, by decide⟩ .nil)
  rw [← same] at traced otherTraced unread
  obtain ⟨verdict, final, otherFinal, one, other⟩ := analyseCall_ignores_unread outcome escapingRules
    .start member summarizes unread (same.symm ▸ uncaptured) built after inputs values passed built
    otherAfter numbers otherValues otherPassed positional otherPositional traced otherTraced
    ((eq_of_shownPassed (of_decide_eq_true shown)).trans
      (eq_of_shownPassed (of_decide_eq_true otherShown)).symm)
  rw [one] at clean
  exact ⟨uncaptured, summary, built, verdict, final, otherFinal, summarizes, one, other,
    of_decide_eq_true clean⟩

/-- The function with the parameter, in `capturedFile`. -/
def capturedCaller : Tree :=
  .node "function_definition" true 6 36 "" [
    .node "name" true 15 16 "name" [],
    .node "formal_parameters" true 16 20 "parameters" [
      .node "simple_parameter" true 17 19 "" [.node "variable_name" true 17 19 "name" []]],
    .node "compound_statement" true 21 36 "body" [
      .node "return_statement" true 23 34 "" [
        .node "function_call_expression" true 30 33 "" [
          .node "name" true 30 31 "function" [],
          .node "arguments" true 31 33 "arguments" []]]]]

/-- The function that is called, in `capturedFile`. -/
def capturedCallee : Tree :=
  .node "function_definition" true 37 64 "" [
    .node "name" true 46 47 "name" [],
    .node "formal_parameters" true 47 49 "parameters" [],
    .node "compound_statement" true 50 64 "body" [
      .node "return_statement" true 52 62 "" [.node "variable_name" true 59 61 "" []]]]

/-- The call with an input, in `capturedFile`. -/
def capturedInput : Tree :=
  .node "function_call_expression" true 65 73 "" [
    .node "name" true 65 66 "function" [],
    .node "arguments" true 66 73 "arguments" [
      .node "argument" true 67 72 "" [.node "variable_name" true 67 72 "" []]]]

/-- The call with a number, in `capturedFile`. -/
def capturedNumber : Tree :=
  .node "function_call_expression" true 75 79 "" [
    .node "name" true 75 76 "function" [],
    .node "arguments" true 76 79 "arguments" [
      .node "argument" true 77 78 "" [.node "integer" true 77 78 "" []]]]

/-- The file `<?php function f($p) { return g(); } function g() { return $p; } f($_GET); f(1);`. -/
def capturedFile : Node :=
  ⟨⟨"captured.php", ("<?php function f($p) \x7b return g(); \x7d function g() " ++
      "\x7b return $p; \x7d f($_GET); f(1);").toUTF8⟩,
    .node "program" true 0 80 "" [
      capturedCaller, capturedCallee,
      .node "expression_statement" true 65 74 "" [capturedInput],
      .node "expression_statement" true 75 80 "" [capturedNumber]]⟩

/-- The first function of `capturedFile` does not mention its parameter `$p`. The unknown
variable `$p` of the function that it calls is taken for it, so the verdict depends on
what is passed: both calls hand over one argument, and to no other parameter. -/
theorem analyseCall_depends_on_unread_captured :
    let declaration := capturedFile.withTree capturedCaller
    let inputs := (capturedFile.withTree capturedInput).arguments
    let numbers := (capturedFile.withTree capturedNumber).arguments
    (declaration.parameterNames = ["$p"] ∧
      (declaration.child? "body").all (fun body => body.preorder.all fun node =>
        node.form ≠ .variableName) = true ∧
      (handedOver declaration (inputs.flatMap Node.namedChildren)).map Prod.fst = [some "$p"] ∧
      (handedOver declaration (numbers.flatMap Node.namedChildren)).map Prod.fst = [some "$p"]) ∧
    Outcome.passes (fun _ annotator =>
      let program := Program.ofAnnotated annotator escapingRules [capturedFile]
      Outcome.passes (fun summary built =>
        Outcome.passes (fun verdict _ => decide (verdict = (.tainted, ∅)))
          (analyseCall summary inputs program built) &&
        Outcome.passes (fun verdict _ => decide (verdict = (.unknown, ∅)))
          (analyseCall summary numbers program built))
        (summarizeFunction declaration program Memory.start))
      ([capturedFile].mapM Annotation.annotateProgram Annotation.Annotator.start) = true := by
  intro declaration inputs numbers
  refine ⟨?_, ?_⟩
  · decide +kernel
  · decide +kernel

end PhpTaint.Flow
