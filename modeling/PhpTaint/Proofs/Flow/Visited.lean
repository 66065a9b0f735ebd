import PhpTaint.Proofs.Annotation.Coverage
import PhpTaint.Proofs.Flow.Access
import PhpTaint.Proofs.Flow.Preservation
import PhpTaint.Proofs.Flow.Sessions

/-!
# Traces of what annotation came to

A trace looks up the scopes of the variables and calls that it meets, and only the
nodes that annotation came to have one. Whatever an analysis has been asked before,
the definitions that its tracers remember are such nodes. From there tracing goes
only to such nodes again, in the same expression, in other statements, in other
functions and in other files, so a trace of one of them has nothing to fail for but
its depth.
-/

namespace PhpTaint.Flow

open Scopes Syntax Rules
open Annotation (walkedNodes annotateProgram Annotator annotated_sound_walked
  mem_nodesOf_of_mem_walkedNodes mem_walkedNodes_iff scopeOf_iff_noted)

/-- What a trace of any expression learns: definitions are remembered only if
annotation came to them. -/
def anywhere (roots : List Node) : Regime where
  admits _ := True
  follows _ _ := True
  enters declaration := declaration ∈ nodesOf roots
  declares declaration := declaration ∈ nodesOf roots
  records := SuitsRecord (walkedNodes roots)
  yields _ := True
  fails _ := True

/-- A trace that stays where annotation went, and fails at most for its depth. -/
def whereWalked (roots : List Node) : Regime :=
  { anywhere roots with
    admits := fun node => node ∈ walkedNodes roots
    follows := fun _ node => node ∈ walkedNodes roots
    enters := fun declaration =>
      declaration ∈ nodesOf roots ∧ declaration.construct = .functionDefinition
    fails := fun fault => fault = .tooDeep }

/-- The declaration that a demand gives as a node. -/
def Demand.declaration? : Demand -> Option Node
  | .query (.call declaration _) | .summary declaration | .call declaration _ => some declaration
  | .query (.expression _) | .query (.named _ _ _) | .expression _ | .named _ _ => none

section Walked

variable {roots : List Node} {program : Program}

/-- A function that a name denotes at any scope stands in the files. -/
theorem Grounded.declared_of_resolveFunction (grounded : Grounded (walkedNodes roots) program)
    {scope : ScopeId} {name : String} {declaration : Node}
    (resolved : program.registry.resolveFunction scope name = .ok declaration) :
    declaration ∈ nodesOf roots ∧ declaration.construct = .functionDefinition := by
  have answer := grounded.sound.resolveFunction_answer
    (Registry.lt_of_resolveFunction resolved) name
  rw [resolved] at answer
  exact ⟨mem_nodesOf_of_mem_walkedNodes answer.1, answer.2⟩

theorem anywhere_lawful (grounded : Grounded (walkedNodes roots) program) :
    (anywhere roots).Lawful program where
  part _ _ _ _ := trivial
  argument _ _ _ _ := trivial
  definingPart _ _ _ _ _ := trivial
  former _ _ _ _ _ _ _ := trivial
  returned _ _ _ _ := trivial
  default _ _ _ _ _ _ := trivial
  kept _ entered := entered
  callee _ _ _ _ _ _ resolved := (grounded.declared_of_resolveFunction resolved).1
  undeclared _ _ _ _ _ _ _ := Or.inr trivial
  unannotated _ _ _ _ _ := trivial
  tooDeep := trivial
  bound _ _ _ _ _ _ visible := suitsRecord_of_visible grounded visible _
  unbound _ := ⟨rfl, nofun⟩
  parameter _ := ⟨rfl, nofun⟩
  input _ _ _ suits := ⟨⟨suits.named, suits.bound⟩, trivial⟩
  leaf _ _ _ _ _ _ := trivial
  definition _ _ _ _ _ _ := trivial
  composable := ⟨fun _ _ => trivial, fun _ _ _ => trivial, fun _ _ => trivial, fun _ => trivial,
    fun _ _ => trivial, fun _ _ _ _ => trivial⟩

/-- From where annotation went, tracing stays there. -/
theorem whereWalked_lawful (grounded : Grounded (walkedNodes roots) program)
    (annotated : forall node, node ∈ walkedNodes roots ->
      ∃ scope, program.registry.scopeOf program.globalScope node = .ok scope)
    (accessible : Accessible roots) (arguments : ArgumentsWalked roots) :
    (whereWalked roots).Lawful program where
  part _ _ member read := walked_of_valuePart accessible arguments member read
  argument _ _ member passed := walked_of_argumentValue member passed
  definingPart _ _ _ member found := walked_of_definingPart? member found
  former _ _ _ _ member kept chosen := walked_of_formerVariable? accessible member kept chosen
  returned _ _ entered returned := walked_of_returned accessible entered.1 entered.2 returned
  default declaration parameter value declared listed found :=
    accessible.defaults declaration declared parameter listed value found
  kept _ entered := entered.1
  callee _ _ _ _ _ _ resolved := grounded.declared_of_resolveFunction resolved
  undeclared node scope name fault _ located resolved := by
    have answer := grounded.sound.resolveFunction_answer (grounded.places node scope located) name
    rw [resolved] at answer
    exact Or.inl answer
  unannotated node fault member _ located := by
    obtain ⟨scope, found⟩ := annotated node member
    rw [located] at found
    cases found
  tooDeep := rfl
  bound _ _ _ _ _ _ visible := suitsRecord_of_visible grounded visible _
  unbound := (anywhere_lawful grounded).unbound
  parameter := (anywhere_lawful grounded).parameter
  input := (anywhere_lawful grounded).input
  leaf _ _ _ _ _ _ := trivial
  definition _ _ _ _ suits origin := by
    have defines := definition_of_recordOrigin grounded suits origin
    exact defines.1
  composable := (anywhere_lawful grounded).composable

/-- What was learned anywhere serves a trace that stays where annotation went. -/
theorem Regime.Holds.whereWalked {memory : Memory} (holds : (anywhere roots).Holds memory) :
    (whereWalked roots).Holds memory := by
  refine ⟨⟨holds.informs.records, holds.informs.traced⟩, ?_⟩
  intro key summary kept
  have sums := holds.sums key summary kept
  exact ⟨sums.declares, sums.returns, ⟨sums.informs.records, sums.informs.traced⟩⟩

/-- A demand that gives no declaration from elsewhere asks for nothing else. -/
theorem within_anywhere (grounded : Grounded (walkedNodes roots) program) {demand : Demand}
    (declared : forall declaration, demand.declaration? = some declaration ->
      declaration ∈ nodesOf roots) : demand.Within (anywhere roots) program := by
  have named : forall scope function, (anywhere roots).Denotes program scope function :=
    fun _ _ => ⟨fun _ resolved => (grounded.declared_of_resolveFunction resolved).1,
      fun _ _ => trivial⟩
  match demand with
  | .query (.expression _) | .expression _ => exact trivial
  | .query (.call declaration _) | .call declaration _ =>
      exact ⟨declared declaration rfl, fun _ _ => trivial⟩
  | .query (.named scope function _) => exact ⟨named scope function, fun _ _ => trivial⟩
  | .summary declaration => exact declared declaration rfl
  | .named scope function => exact named scope function

end Walked

/-- The scopes of annotated files hold only definitions that annotation came to. -/
theorem Grounded.of_walked {roots : List Node} {ends : List ScopeId} {annotator : Annotator}
    (annotated : roots.mapM annotateProgram Annotator.start = .ok ends annotator)
    (rules : RuleSet) (limit : Nat) :
    Grounded (walkedNodes roots) ⟨annotator.registry, annotator.globalScope, rules, limit⟩ :=
  ⟨annotated_sound_walked annotated, (Grounded.of_annotated annotated rules).places⟩

/-- What annotation came to has a scope. -/
theorem exists_scopeOf_of_walked {roots : List Node} {ends : List ScopeId} {annotator : Annotator}
    (annotated : roots.mapM annotateProgram Annotator.start = .ok ends annotator) {node : Node}
    (member : node ∈ walkedNodes roots) :
    ∃ scope, annotator.registry.scopeOf annotator.globalScope node = .ok scope := by
  obtain ⟨root, listed, walks⟩ := mem_walkedNodes_iff.1 member
  exact (scopeOf_iff_noted annotated node).2
    ⟨root, listed, node, ⟨node, walks, Or.inl rfl⟩, rfl⟩

/-- In files whose labelled parts are named nodes, and of which annotation came to
all return statements, all default values and all arguments of the calls that it
came to: whatever an analysis has been asked before, about whatever expressions and
about functions of the files, and whichever tracer is used, a trace of a node that
annotation came to ends with dependencies, unless it goes too deep. -/
theorem trace_of_walked_ends {roots : List Node} {ends : List ScopeId} {annotator : Annotator}
    (annotated : roots.mapM annotateProgram Annotator.start = .ok ends annotator)
    (accessible : Accessible roots) (arguments : ArgumentsWalked roots) (rules : RuleSet)
    (limit : Nat) {requests : List Request}
    (declared : forall request, request ∈ requests -> forall declaration,
      request.demand.declaration? = some declaration -> declaration ∈ nodesOf roots)
    (seat : Seat) {node : Node} (member : node ∈ walkedNodes roots) (depth : Nat) :
    let program : Program := ⟨annotator.registry, annotator.globalScope, rules, limit⟩
    let desk := Desk.following program requests
    let ended := traceWithin depth node program (desk.memory.withTracer (desk.tracerAt seat))
    (∃ deps after, ended = .ok deps after) ∨ ∃ after, ended = .error .tooDeep after := by
  intro program desk ended
  have grounded : Grounded (walkedNodes roots) program := .of_walked annotated rules limit
  have before : desk.Holds (anywhere roots) :=
    Desk.following_holds (anywhere_lawful grounded) fun request listed =>
      within_anywhere grounded (declared request listed)
  have holds := (before.memory.withTracer (before.tracerAt seat)).whereWalked
  have lawful := whereWalked_lawful grounded (fun _ => exists_scopeOf_of_walked annotated)
    accessible arguments
  have obeys := (lawful.governed depth).trace node _ member holds
  cases run : ended with
  | ok deps after => exact Or.inl ⟨deps, after, rfl⟩
  | error fault after =>
      obtain ⟨rfl, _⟩ := obeys.of_error run
      exact Or.inr ⟨after, rfl⟩

/-- The declaration in `defaultingFile`. -/
def defaultingDeclaration : Tree :=
  .node "function_definition" true 6 52 "" [
    .node "name" true 15 16 "name" [],
    .node "formal_parameters" true 16 32 "parameters" [
      .node "simple_parameter" true 17 19 "" [.node "variable_name" true 17 19 "name" []],
      .node "simple_parameter" true 21 31 "" [
        .node "variable_name" true 21 23 "name" [],
        .node "variable_name" true 26 31 "default_value" []]],
    .node "compound_statement" true 33 52 "body" [
      .node "return_statement" true 35 50 "" [
        .node "binary_expression" true 42 49 "" [
          .node "variable_name" true 42 44 "left" [],
          .node "variable_name" true 47 49 "right" []]]]]

/-- The last statement of `defaultingFile`. -/
def defaultingEcho : Tree :=
  .node "echo_statement" true 74 82 "" [.node "variable_name" true 79 81 "" []]

/-- The file
`<?php function f($b, $a = $_GET) { return $a . $b; } $x = 1; $x .= f($x); echo $x;`. -/
def defaultingFile : Node :=
  let variableAt (start : Nat) (label : String) : Tree :=
    .node "variable_name" true start (start + 2) label []
  ⟨⟨"defaulting.php", ("<?php function f($b, $a = $_GET) \x7b return $a . $b; \x7d $x = 1; " ++
      "$x .= f($x); echo $x;").toUTF8⟩,
    .node "program" true 0 82 "" [
      defaultingDeclaration,
      .node "expression_statement" true 53 60 "" [
        .node "assignment_expression" true 53 59 "" [
          variableAt 53 "left", .node "integer" true 58 59 "right" []]],
      .node "expression_statement" true 61 73 "" [
        .node "augmented_assignment_expression" true 61 72 "" [
          variableAt 61 "left",
          .node "function_call_expression" true 67 72 "right" [
            .node "name" true 67 68 "function" [],
            .node "arguments" true 68 72 "arguments" [
              .node "argument" true 69 71 "" [variableAt 69 ""]]]]],
      defaultingEcho]⟩

/-- The last variable of `defaultingFile`, traced by the tracer that has summarized
the function, is followed to its definition, to what it held before, to what the
function returns and to the default value of a parameter. -/
theorem trace_of_walked_ends_defaulting :
    let summary : Request :=
      ⟨.fresh [] true, .summary (defaultingFile.withTree defaultingDeclaration)⟩
    let last := defaultingFile.withTree (.node "variable_name" true 79 81 "" [])
    ∃ ends annotator, [defaultingFile].mapM annotateProgram Annotator.start = .ok ends annotator ∧
      let program := Program.ofAnnotated annotator ∅ [defaultingFile]
      let desk := Desk.following program [summary]
      let tracer := desk.tracerAt (.builder (defaultingFile.withTree defaultingDeclaration))
      ∃ deps after,
        traceWithin program.depth last program (desk.memory.withTracer tracer) = .ok deps after ∧
          deps.keys = ["$_GET"] := by
  intro summary last
  have distinct : KeysDistinct [defaultingFile] := by
    unfold KeysDistinct
    decide +kernel
  have accessible := accessible_of_checkAccess distinct (by decide +kernel)
  have arguments := argumentsWalked_of_checkArguments distinct (by decide +kernel)
  have root : defaultingFile ∈ nodesOf [defaultingFile] :=
    mem_nodesOf_of_root (List.mem_cons_self ..)
  have inFile : last ∈ nodesOf [defaultingFile] := by
    have statement : defaultingFile.withTree defaultingEcho ∈ defaultingFile.children :=
      List.mem_of_getLast? rfl
    exact mem_nodesOf_of_mem_children (mem_nodesOf_of_mem_children root statement)
      (List.mem_cons_self ..)
  have walked : last ∈ walkedNodes [defaultingFile] :=
    walked_of_isWalked distinct inFile (by decide +kernel)
  have declared : forall request, request ∈ [summary] -> forall declaration,
      request.demand.declaration? = some declaration -> declaration ∈ nodesOf [defaultingFile] := by
    intro request listed declaration given
    cases List.mem_singleton.1 listed
    cases given
    exact mem_nodesOf_of_mem_children root (List.mem_cons_self ..)
  have ran : Outcome.passes (fun _ annotator =>
      let program := Program.ofAnnotated annotator ∅ [defaultingFile]
      let desk := Desk.following program [summary]
      let tracer := desk.tracerAt (.builder (defaultingFile.withTree defaultingDeclaration))
      let ended := traceWithin program.depth last program (desk.memory.withTracer tracer)
      decide ((Ending.answer ended).toOption.map Table.keys = some ["$_GET"]))
      ([defaultingFile].mapM annotateProgram Annotator.start) = true := by
    decide +kernel
  obtain ⟨ends, annotator, outcome, shows⟩ := Outcome.exists_of_passes ran
  refine ⟨ends, annotator, outcome, ?_⟩
  intro program desk tracer
  -- the run only shows the keys; that it ends is the theorem
  rcases trace_of_walked_ends outcome accessible arguments ∅ program.depth declared
    (.builder (defaultingFile.withTree defaultingDeclaration)) walked program.depth with
    ⟨deps, after, ended⟩ | ⟨after, ended⟩
  all_goals
    change traceWithin program.depth last program (desk.memory.withTracer tracer) = _ at ended
    have shows := of_decide_eq_true shows
    change (Ending.answer (traceWithin program.depth last program
      (desk.memory.withTracer tracer))).toOption.map Table.keys = some ["$_GET"] at shows
    rw [ended] at shows
  · exact ⟨deps, after, ended, Option.some.inj shows⟩
  · cases shows

/-- The call in `misplacedFile`. -/
def misplacedCall : Tree :=
  .node "function_call_expression" true 6 11 "" [
    .node "name" true 6 7 "function" [],
    .node "global_declaration" true 7 11 "arguments" [
      .node "argument" true 8 10 "" [.node "variable_name" true 8 10 "" []]]]

/-- The file `<?php f($x);`, with a tree in which the arguments of the call are those
of a global declaration. -/
def misplacedFile : Node :=
  ⟨⟨"misplaced.php", "<?php f($x);".toUTF8⟩,
    .node "program" true 0 12 "" [.node "expression_statement" true 6 12 "" [misplacedCall]]⟩

/-- The arguments have to be walked: in `misplacedFile` all labelled parts are named,
there is nothing to return and no default value, and annotation came to the call, but
the variable that it passes has no scope. -/
theorem trace_of_walked_fails_misplaced :
    let call := misplacedFile.withTree misplacedCall
    let passed := misplacedFile.withTree (.node "variable_name" true 8 10 "" [])
    Accessible [misplacedFile] ∧ call ∈ walkedNodes [misplacedFile] ∧
      ∃ ends annotator, [misplacedFile].mapM annotateProgram Annotator.start = .ok ends annotator ∧
        let program := Program.ofAnnotated annotator ∅ [misplacedFile]
        ∃ after, traceWithin program.depth call program
          (Memory.start.withTracer (Tracer.fresh [] true)) =
            .error (.unannotated passed.describe) after := by
  intro call passed
  have distinct : KeysDistinct [misplacedFile] := by
    unfold KeysDistinct
    decide +kernel
  have root : misplacedFile ∈ nodesOf [misplacedFile] :=
    mem_nodesOf_of_root (List.mem_cons_self ..)
  have inFile : call ∈ nodesOf [misplacedFile] :=
    mem_nodesOf_of_mem_children (mem_nodesOf_of_mem_children root (List.mem_cons_self ..))
      (List.mem_cons_self ..)
  refine ⟨accessible_of_checkAccess distinct (by decide +kernel),
    walked_of_isWalked distinct inFile (by decide +kernel), ?_⟩
  have ran : Outcome.passes (fun _ annotator =>
      let program := Program.ofAnnotated annotator ∅ [misplacedFile]
      match traceWithin program.depth call program
        (Memory.start.withTracer (Tracer.fresh [] true)) with
      | .ok _ _ => false
      | .error fault _ => decide (fault = .unannotated passed.describe))
      ([misplacedFile].mapM annotateProgram Annotator.start) = true := by
    decide +kernel
  obtain ⟨ends, annotator, outcome, missing⟩ := Outcome.exists_of_passes ran
  refine ⟨ends, annotator, outcome, ?_⟩
  intro program
  simp only at missing
  split at missing
  · cases missing
  · rename_i fault after ended
    exact ⟨after, ended.trans (by rw [of_decide_eq_true missing])⟩

end PhpTaint.Flow
