import PhpTaint.Proofs.Flow.Widening

/-!
# What a variadic parameter takes

A function whose last parameter is variadic has a place for every argument that is
positional, unpacked or names one of its parameters: there is always a next parameter,
and what is bound to a parameter is never taken away, neither by later arguments nor
by default values. An argument under a name that no parameter has finds no place. It is
kept under its own name, from which nothing is read, and is lost.
-/

namespace PhpTaint.Flow

open Scopes Syntax Rules

variable {program : Program} {memory after : Memory} {summary : Summary}
  {table arguments : Table String Deps} {deps : Deps} {bound : Bound}

/-- Whether the last parameter takes all further arguments. -/
def Summary.IsVariadic (summary : Summary) : Prop :=
  ∃ last, summary.parameters.getLast? = some last ∧ last.kind = "variadic_parameter"

/-- Whether an argument is positional, unpacked or names a parameter. -/
def Summary.Addresses (summary : Summary) (argument : Node) : Prop :=
  argument.argumentName = "" ∨ argument.argumentName ∈ summary.parameterNames

/-- The leaves of dependencies are among those bound to one parameter. -/
def Summary.Keeps (summary : Summary) (arguments : Table String Deps) (deps : Deps) : Prop :=
  ∃ name, name ∈ summary.parameterNames ∧ KeptAt arguments name deps

theorem Summary.Keeps.widen {before after : Table String Deps} (keeps : summary.Keeps before deps)
    (widens : Widens before after) : summary.Keeps after deps := by
  obtain ⟨name, declared, kept⟩ := keeps
  exact ⟨name, declared, kept.widen widens⟩

namespace Bound

variable {argument value : Node}

/-- A variadic last parameter leaves a next parameter after every argument. -/
theorem position_bind_lt (variadic : summary.IsVariadic)
    (room : bound.position < summary.parameters.length) (argument value : Node) (deps : Deps) :
    (bound.bind summary argument value deps).position < summary.parameters.length := by
  unfold Bound.bind
  dsimp only
  split
  · exact room
  · split
    · exact room
    · rw [List.getElem?_eq_getElem room]
      dsimp only
      split
      · exact room
      · -- the position of a plain parameter is not the last one
        rename_i plain
        obtain ⟨last, lastEq, isVariadic⟩ := variadic
        refine Nat.lt_of_le_of_ne room fun atEnd => plain ?_
        rw [List.getLast?_eq_getElem?, ← atEnd, Nat.add_sub_cancel,
          List.getElem?_eq_getElem room] at lastEq
        rw [Option.some.inj lastEq]
        exact isVariadic

/-- While there is a next parameter, an argument finds its place. -/
theorem keeps_bind (room : bound.position < summary.parameters.length)
    (addresses : summary.Addresses argument) (value : Node) (deps : Deps) :
    summary.Keeps (bound.bind summary argument value deps).arguments deps := by
  unfold Bound.bind
  dsimp only
  split
  · rename_i named
    exact ⟨_, addresses.resolve_left (by simpa using named), .bindName _ _ _⟩
  · split
    · -- the unpacked argument fills the next parameter, among others
      have aligned : summary.parameterNames.length = summary.parameters.length :=
        List.length_map ..
      have next : bound.position < summary.parameterNames.length := by rwa [aligned]
      refine ⟨_, List.getElem_mem next, .bindNames ?_ _ _⟩
      rw [List.drop_eq_getElem_cons next]
      exact List.mem_cons_self ..
    · rw [List.getElem?_eq_getElem room]
      exact ⟨_, List.mem_map_of_mem (List.getElem_mem room), .bindName _ _ _⟩

/-- An argument under a name of its own changes nothing that is bound to a parameter. -/
theorem find?_bind_of_not_addresses (astray : ¬ summary.Addresses argument) (value : Node)
    (deps : Deps) {name : String} (declared : name ∈ summary.parameterNames) :
    (bound.bind summary argument value deps).arguments.find? name = bound.arguments.find? name ∧
      (bound.bind summary argument value deps).position = bound.position := by
  obtain ⟨named, undeclared⟩ := not_or.1 astray
  have other : name ≠ argument.argumentName := fun same => undeclared (same ▸ declared)
  unfold Bound.bind
  rw [if_pos (by simpa using named)]
  refine ⟨?_, rfl⟩
  unfold bindName
  dsimp only
  split <;> exact Table.find?_insert_of_ne _ _ other

end Bound

section Runs

variable {α β : Type} {trace : Node -> Tracing Deps}

/-- There is still a next parameter after more arguments. -/
theorem foldlM_bindArgument_position_lt {items : List Node} {final : Bound}
    (variadic : summary.IsVariadic) (room : bound.position < summary.parameters.length)
    (ended : items.foldlM (bindArgument trace summary) bound program memory = .ok final after) :
    final.position < summary.parameters.length := by
  refine foldlM_bindArgument_kept (fun _ next => next.position < summary.parameters.length)
    (fun _ next argument value deps _ _ room => ?_) (fun _ _ _ _ _ room => room) 0 room ended
  exact next.position_bind_lt variadic room argument value deps

/-- What becomes of one argument of a call of a function with a variadic last parameter.
The arguments before it are bound, and its value is traced. If it has a place, all its
leaves are kept by a parameter. If it has none, nothing that is bound to a parameter
changes, and neither does the next position. -/
theorem bindArguments_keeps_addressed (variadic : summary.IsVariadic) {earlier later : List Node}
    {argument value : Node} (passed : argument.argumentValue = some value)
    (ended : bindArguments trace summary (earlier ++ argument :: later) program memory =
      .ok table after) :
    ∃ bound before deps middle,
      earlier.foldlM (bindArgument trace summary) ⟨∅, 0⟩ program memory = .ok bound before ∧
        trace value program before = .ok deps middle ∧
        (summary.Addresses argument -> summary.Keeps table deps) ∧
        (¬ summary.Addresses argument -> forall name, name ∈ summary.parameterNames ->
          (bound.bind summary argument value deps).arguments.find? name =
              bound.arguments.find? name ∧
            (bound.bind summary argument value deps).position = bound.position) := by
  obtain ⟨bound, before, deps, middle, first, traced, widens⟩ := bindArguments_split passed ended
  refine ⟨bound, before, deps, middle, first, traced, fun addresses => ?_, fun astray name =>
    Bound.find?_bind_of_not_addresses astray value deps⟩
  -- the position before the first argument is that of the first parameter
  have start : (⟨∅, 0⟩ : Bound).position < summary.parameters.length := by
    obtain ⟨last, lastEq, -⟩ := variadic
    exact List.length_pos_of_mem (List.mem_of_getLast? lastEq)
  have room := foldlM_bindArgument_position_lt variadic start first
  exact (Bound.keeps_bind room addresses value deps).widen widens

end Runs

/-- The declaration in `collectingFile`. -/
def collectingDeclaration : Tree :=
  .node "function_definition" true 6 48 "" [
    .node "name" true 15 16 "name" [],
    .node "formal_parameters" true 16 30 "parameters" [
      .node "simple_parameter" true 17 19 "" [.node "variable_name" true 17 19 "name" []],
      .node "variadic_parameter" true 21 29 "" [.node "variable_name" true 24 29 "name" []]],
    .node "compound_statement" true 31 48 "body" [
      .node "return_statement" true 33 46 "" [.node "variable_name" true 40 45 "" []]]]

/-- The value of the argument `x: $_GET` in `collectingFile`. -/
def strayValue : Tree := .node "variable_name" true 57 62 "" []

/-- The arguments `1` and `x: $_GET` in `collectingFile`. -/
def strayArguments : List Tree :=
  [.node "argument" true 51 52 "" [.node "integer" true 51 52 "" []],
    .node "argument" true 54 62 "" [.node "name" true 54 55 "name" [], strayValue]]

/-- The value of the argument `...$_GET` in `collectingFile`. -/
def unpackedValue : Tree :=
  .node "variadic_unpacking" true 70 78 "" [.node "variable_name" true 73 78 "" []]

/-- The argument `...$_GET` in `collectingFile`. -/
def unpackedArgument : Tree := .node "argument" true 70 78 "" [unpackedValue]

/-- The arguments `1`, `...$_GET` and `a: 2` in `collectingFile`. -/
def spreadArguments : List Tree :=
  [.node "argument" true 67 68 "" [.node "integer" true 67 68 "" []],
    unpackedArgument,
    .node "argument" true 80 84 "" [
      .node "name" true 80 81 "name" [], .node "integer" true 83 84 "" []]]

/-- The file `<?php function f($a, ...$rest) { return $rest; } f(1, x: $_GET);
f(1, ...$_GET, a: 2);`, on one line. -/
def collectingFile : Node :=
  ⟨⟨"collect.php", ("<?php function f($a, ...$rest) \x7b return $rest; \x7d f(1, x: $_GET); " ++
      "f(1, ...$_GET, a: 2);").toUTF8⟩,
    .node "program" true 0 86 "" [
      collectingDeclaration,
      .node "expression_statement" true 49 64 "" [
        .node "function_call_expression" true 49 63 "" [
          .node "name" true 49 50 "function" [],
          .node "arguments" true 50 63 "arguments" strayArguments]],
      .node "expression_statement" true 65 86 "" [
        .node "function_call_expression" true 65 85 "" [
          .node "name" true 65 66 "function" [],
          .node "arguments" true 66 85 "arguments" spreadArguments]]]⟩

/-- The parameters of `collectingFile` keep an unpacked argument, also when one under
the name of a parameter follows. -/
theorem bindArguments_keeps_addressed_spread :
    let declaration := collectingFile.withTree collectingDeclaration
    let arguments := spreadArguments.map collectingFile.withTree
    ∃ ends annotator, [collectingFile].mapM Annotation.annotateProgram
        Annotation.Annotator.start = .ok ends annotator ∧
      let program := Program.ofAnnotated annotator ∅ [collectingFile]
      ∃ summary built table after deps,
        summarizeFunction declaration program Memory.start = .ok summary built ∧
        summary.IsVariadic ∧
        bindArguments (visitor program.depth).trace summary arguments program built =
          .ok table after ∧
        deps.keys = ["$_GET"] ∧ summary.Keeps table deps := by
  intro declaration arguments
  have ran : Outcome.passes (fun _ annotator =>
      let program := Program.ofAnnotated annotator ∅ [collectingFile]
      let trace := (visitor program.depth).trace
      Outcome.passes (fun summary built =>
        decide (summary.parameters.getLast?.map Node.kind = some "variadic_parameter") &&
        Outcome.passes (fun _ _ => true) (bindArguments trace summary arguments program built) &&
        Outcome.passes (fun _ before =>
          Outcome.passes (fun deps _ => decide (deps.keys = ["$_GET"]))
            (trace (collectingFile.withTree unpackedValue) program before))
          ((arguments.take 1).foldlM (bindArgument trace summary) ⟨∅, 0⟩ program built))
        (summarizeFunction declaration program Memory.start))
      ([collectingFile].mapM Annotation.annotateProgram Annotation.Annotator.start) = true := by
    decide +kernel
  obtain ⟨ends, annotator, outcome, held⟩ := Outcome.exists_of_passes ran
  obtain ⟨summary, built, summarizes, held⟩ := Outcome.exists_of_passes held
  simp only [Bool.and_eq_true, decide_eq_true_eq] at held
  obtain ⟨⟨lastKind, ended⟩, leaf⟩ := held
  obtain ⟨table, after, ended, -⟩ := Outcome.exists_of_passes ended
  obtain ⟨last, lastEq, isVariadic⟩ := Option.map_eq_some_iff.1 lastKind
  have variadic : summary.IsVariadic := ⟨last, lastEq, isVariadic⟩
  have passed : (collectingFile.withTree unpackedArgument).argumentValue =
      some (collectingFile.withTree unpackedValue) := rfl
  have parts : arguments =
      arguments.take 1 ++ collectingFile.withTree unpackedArgument :: arguments.drop 2 := rfl
  rw [parts] at ended
  obtain ⟨bound, before, deps, middle, first, traced, keeps, -⟩ :=
    bindArguments_keeps_addressed variadic passed ended
  simp only [first, Outcome.passes, traced, decide_eq_true_eq] at leaf
  exact ⟨ends, annotator, outcome, summary, built, table, after, deps, summarizes, variadic, ended,
    leaf, keeps (Or.inl (by decide +kernel))⟩

/-- The function of `collectingFile` has no parameter `$x`, and its variadic parameter
does not take the argument under this name either: its leaf is bound to no parameter. -/
theorem bindArguments_loses_stray :
    let declaration := collectingFile.withTree collectingDeclaration
    let arguments := strayArguments.map collectingFile.withTree
    ∃ ends annotator, [collectingFile].mapM Annotation.annotateProgram
        Annotation.Annotator.start = .ok ends annotator ∧
      let program := Program.ofAnnotated annotator ∅ [collectingFile]
      ∃ summary built table after deps before middle,
        summarizeFunction declaration program Memory.start = .ok summary built ∧
        summary.IsVariadic ∧
        bindArguments (visitor program.depth).trace summary arguments program built =
          .ok table after ∧
        (visitor program.depth).trace (collectingFile.withTree strayValue) program before =
          .ok deps middle ∧
        deps.keys = ["$_GET"] ∧ ¬ summary.Keeps table deps := by
  intro declaration arguments
  have ran : Outcome.passes (fun _ annotator =>
      let program := Program.ofAnnotated annotator ∅ [collectingFile]
      let trace := (visitor program.depth).trace
      Outcome.passes (fun summary built =>
        decide (summary.parameters.getLast?.map Node.kind = some "variadic_parameter") &&
        Outcome.passes (fun table _ => summary.parameterNames.all fun name =>
            ((table.find? name).getD ∅).keys.all fun leaf => leaf != "$_GET")
          (bindArguments trace summary arguments program built) &&
        Outcome.passes (fun _ before =>
          Outcome.passes (fun deps _ => decide (deps.keys = ["$_GET"]))
            (trace (collectingFile.withTree strayValue) program before))
          ((arguments.take 1).foldlM (bindArgument trace summary) ⟨∅, 0⟩ program built))
        (summarizeFunction declaration program Memory.start))
      ([collectingFile].mapM Annotation.annotateProgram Annotation.Annotator.start) = true := by
    decide +kernel
  obtain ⟨ends, annotator, outcome, held⟩ := Outcome.exists_of_passes ran
  obtain ⟨summary, built, summarizes, held⟩ := Outcome.exists_of_passes held
  simp only [Bool.and_eq_true, decide_eq_true_eq] at held
  obtain ⟨⟨lastKind, ended⟩, traced⟩ := held
  obtain ⟨table, after, ended, missing⟩ := Outcome.exists_of_passes ended
  obtain ⟨last, lastEq, isVariadic⟩ := Option.map_eq_some_iff.1 lastKind
  obtain ⟨bound, before, first, traced⟩ := Outcome.exists_of_passes traced
  obtain ⟨deps, middle, traced, leaf⟩ := Outcome.exists_of_passes traced
  refine ⟨ends, annotator, outcome, summary, built, table, after, deps, before, middle, summarizes,
    ⟨last, lastEq, isVariadic⟩, ended, traced, of_decide_eq_true leaf, ?_⟩
  rintro ⟨name, declared, kept, found, within⟩
  have listed := within "$_GET" (by rw [of_decide_eq_true leaf]; exact List.mem_cons_self ..)
  have absent := List.all_eq_true.1 missing name declared
  rw [found] at absent
  have differs := List.all_eq_true.1 absent "$_GET" listed
  simp at differs

end PhpTaint.Flow
