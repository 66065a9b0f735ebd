import PhpTaint.Proofs.Flow.Depth

/-!
# Termination of tracing

Following calls, tracing comes to an end whatever recursion the functions of the
analysed files contain, except that default values are traced after the summary
of their function is complete, when nothing marks the function any more. A call
that falls back on a default value which leads to the same default value again
therefore never ends. `trace_ends_unless_default_cycle` states both sides.
-/

namespace PhpTaint.Flow

open Scopes Syntax Rules

/-- An expression leads to a default value that leads back to itself. -/
def FallsBackForever (program : Program) (nodes : List Node) (node : Node) : Prop :=
  ∃ value, Relation.ReflTransGen (FlowStep program nodes) node value ∧
    Relation.TransGen (FlowStep program nodes) value value

/-- A step ends with a fault. -/
def Fails {α : Type} (program : Program) (memory : Memory) (step : Tracing α) : Prop :=
  Concludes program memory step (fun _ _ => False) fun _ _ => True

variable {α β : Type} {nodes roots : List Node} {faults : Fault -> Prop} {program : Program}
  {memory : Memory} {node next : Node}

theorem FlowStep.occurs (flows : FlowStep program (nodesOf roots) node next)
    (member : node ∈ nodesOf roots) : next ∈ nodesOf roots := by
  cases flows with
  | part _ listed => exact (inside_of_mem_valueParts listed).occurs roots member
  | argument _ listed passed =>
      exact ((Node.Inside.of_mem_arguments listed).of_argumentValue passed).occurs roots member
  | fallback _ declared _ unfilled =>
      exact (inside_of_mem_unfilledDefaults unfilled).occurs roots declared

/-- What falls back forever leads to something that does. -/
theorem FallsBackForever.step (forever : FallsBackForever program nodes node) :
    ∃ next, FlowStep program nodes node next ∧ FallsBackForever program nodes next := by
  obtain ⟨value, reaches, cycle⟩ := forever
  rcases Relation.ReflTransGen.cases_head reaches with rfl | ⟨next, flows, rest⟩
  · obtain ⟨next, flows, rest⟩ := Relation.TransGen.head'_iff.1 cycle
    exact ⟨next, flows, node, rest, cycle⟩
  · exact ⟨next, flows, value, rest, cycle⟩

namespace Fails

theorem bind_left {first : Tracing β} {continued : β -> Tracing α}
    (fails : Fails program memory first) : Fails program memory (first >>= continued) := by
  rw [Fails, Concludes.bind_iff]
  exact Concludes.mono fails (fun _ _ absurd => absurd.elim) fun _ _ holds => holds

theorem bind_right {first : Tracing β} {continued : β -> Tracing α} {passed : β -> Prop}
    (safe : SafelyGives nodes faults program memory first passed)
    (fails : forall value after, passed value -> Coherent nodes after -> Kept memory after ->
      Fails program after (continued value)) :
    Fails program memory (first >>= continued) := by
  rw [Fails, Concludes.bind_iff]
  refine Concludes.mono safe ?_ fun _ _ _ => trivial
  rintro value after ⟨holds, coherent, kept⟩
  exact fails value after holds coherent kept

/-- A pass over a list fails if the step for one of the items does. -/
theorem mapM (faults : Fault -> Prop) {step : β -> Tracing α} {items : List β} {item : β}
    (member : item ∈ items) (coherent : Coherent nodes memory)
    (safe : forall other, other ∈ items -> forall after, Coherent nodes after ->
      Kept memory after -> Safe nodes faults program after (step other))
    (fails : forall after, Coherent nodes after -> Kept memory after ->
      Fails program after (step item)) :
    Fails program memory (items.mapM step) := by
  induction items generalizing memory with
  | nil => cases member
  | cons first rest inductionHypothesis =>
      rw [List.mapM_cons]
      rcases List.mem_cons.1 member with rfl | later
      · exact bind_left (fails memory coherent (Kept.refl memory))
      · refine bind_right (safe first (List.mem_cons_self ..) memory coherent (Kept.refl memory)) ?_
        intro value after _ coherent kept
        refine bind_left (inductionHypothesis later coherent ?_ ?_)
        · intro other listed final coherent more
          exact safe other (List.mem_cons_of_mem _ listed) final coherent (kept.trans more)
        · intro final coherent more
          exact fails final coherent (kept.trans more)

theorem foldlM (faults : Fault -> Prop) {step : α -> β -> Tracing α} {items : List β} {start : α}
    {item : β} (member : item ∈ items) (coherent : Coherent nodes memory)
    (safe : forall other, other ∈ items -> forall value after, Coherent nodes after ->
      Kept memory after -> Safe nodes faults program after (step value other))
    (fails : forall value after, Coherent nodes after -> Kept memory after ->
      Fails program after (step value item)) :
    Fails program memory (items.foldlM step start) := by
  induction items generalizing memory start with
  | nil => cases member
  | cons first rest inductionHypothesis =>
      rw [List.foldlM_cons]
      rcases List.mem_cons.1 member with rfl | later
      · exact bind_left (fails start memory coherent (Kept.refl memory))
      · refine bind_right
          (safe first (List.mem_cons_self ..) start memory coherent (Kept.refl memory)) ?_
        intro value after _ coherent kept
        refine inductionHypothesis later coherent ?_ ?_
        · intro other listed value final coherent more
          exact safe other (List.mem_cons_of_mem _ listed) value final coherent (kept.trans more)
        · intro value final coherent more
          exact fails value final coherent (kept.trans more)

/-- Falling back on default values fails if tracing one of them does. -/
theorem foldlM_bindDefault (faults : Fault -> Prop) {trace : Node -> Tracing Deps}
    {parameters : List Node} {arguments : Table String Deps} {names : List String} {value : Node}
    (member : value ∈ defaultsBeside names parameters) (coherent : Coherent nodes memory)
    (agrees : forall name, arguments.contains name = true ↔ name ∈ names)
    (safe : forall other after, other ∈ defaultsBeside names parameters ->
      Coherent nodes after -> Kept memory after -> Safe nodes faults program after (trace other))
    (fails : forall after, Coherent nodes after -> Kept memory after ->
      Fails program after (trace value)) :
    Fails program memory (parameters.foldlM (bindDefault trace) arguments) := by
  rw [Flow.foldlM_bindDefault agrees]
  rw [← map_snd_fallbacks] at member
  obtain ⟨item, listed, rfl⟩ := List.mem_map.1 member
  refine foldlM faults listed coherent ?_ ?_
  · intro other passed arguments after coherent kept
    refine SafelyGives.bind
      (safe other.2 after (mem_defaultsBeside_of_mem_fallbacks passed) coherent kept) ?_
    intro deps final _ coherent _
    exact SafelyGives.of_pure coherent trivial
  · exact fun arguments after coherent kept => bind_left (fails after coherent kept)

end Fails

/-- A call of a declared function fails if binding its arguments does. -/
theorem followCall_fails (grounded : Grounded nodes program) (coherent : Coherent nodes memory)
    (follows : memory.tracer.followsCalls = true) (idle : memory.inProgress = []) {visitor : Visitor}
    (visits : SafeVisitor nodes faults program memory node visitor) {callee target : Node}
    (isCall : node.form = .call) (named : calleeOf program.rules node = .named callee)
    (called : calledFunction? program node = some target)
    (fails : forall summary after, summary.declaration ∈ nodes ->
      summary.declaration.key = target.key -> Coherent nodes after -> Kept memory after ->
        Fails program after (bindArguments visitor.trace summary node.arguments)) :
    Fails program memory (followCall visitor.trace node callee.text) := by
  refine grounded.followCall_of isCall named ?_ ?_ ?_ ?_
  · exact fun _ _ => trivial
  · intro undeclared
    rw [called] at undeclared
    cases undeclared
  · intro declaration _ listed
    rw [idle] at listed
    cases listed
  · intro declaration found declares isFunction waiting
    obtain rfl := Option.some.inj (called.symm.trans found)
    refine Fails.bind_right (summaryOf_safe coherent declares waiting fun part after =>
      visits.body target part after follows declares isFunction waiting) ?_
    rintro summary after ⟨declared, sameKey⟩ coherent kept
    unfold callDependencies
    exact Fails.bind_left (fails summary after declared sameKey coherent kept)

/-- A call of a declared function, as an expression, fails if binding its arguments
does. -/
theorem traceNode_fails_of_call (grounded : Grounded nodes program)
    (coherent : Coherent nodes memory) (follows : memory.tracer.followsCalls = true)
    (idle : memory.inProgress = []) {visitor : Visitor}
    (visits : SafeVisitor nodes faults program memory node visitor) {target : Node}
    (called : calledFunction? program node = some target)
    (fails : forall summary after, summary.declaration ∈ nodes ->
      summary.declaration.key = target.key -> Coherent nodes after -> Kept memory after ->
        Fails program after (bindArguments visitor.trace summary node.arguments)) :
    Fails program memory (traceNode visitor node) := by
  obtain ⟨isCall, callee, _, named, _, _⟩ := of_calledFunction?_eq_some called
  have failing := followCall_fails grounded coherent follows idle visits isCall named called fails
  unfold traceNode
  rw [isCall]
  refine (Concludes.traceCall_iff named).2 ?_
  rw [if_pos follows]
  exact Concludes.mono failing (fun _ _ absurd => absurd.elim) fun _ _ holds => holds

/-- While no summary is being built, an expression fails if one that it leads to
does. -/
theorem traceNode_fails (grounded : Grounded (nodesOf roots) program)
    (distinct : KeysDistinct roots) (coherent : Coherent (nodesOf roots) memory)
    (follows : memory.tracer.followsCalls = true) (idle : memory.inProgress = []) {visitor : Visitor}
    (visits : SafeVisitor (nodesOf roots) faults program memory node visitor)
    (flows : FlowStep program (nodesOf roots) node next)
    (fails : forall after, Coherent (nodesOf roots) after -> Kept memory after ->
      Fails program after (visitor.trace next)) :
    Fails program memory (traceNode visitor node) := by
  cases flows with
  | part undeclared member =>
      have notVariable : node.form ≠ .variableName := by
        intro isVariable
        simp [valueParts, isVariable] at member
      obtain ⟨noted, kept⟩ := coherent.noted program.rules node
      refine traceNode_uncalled grounded notVariable undeclared (fun _ _ _ => trivial) ?_
      refine Fails.mapM faults member noted ?_ ?_
      · intro other listed after coherent more
        exact visits.part other after (inside_of_mem_valueParts listed)
          (fun _ => .part undeclared listed) coherent (kept.trans more)
      · intro after coherent more
        exact fails after coherent (kept.trans more)
  | argument called listed passed =>
      refine traceNode_fails_of_call grounded coherent follows idle visits called ?_
      intro summary after _ _ coherent kept
      refine Fails.bind_left (Fails.foldlM faults listed coherent ?_ ?_)
      · intro other otherListed bound final coherent more
        unfold bindArgument
        cases otherPassed : other.argumentValue with
        | none => exact SafelyGives.of_pure coherent trivial
        | some value =>
            refine SafelyGives.bind (visits.part value final
              ((Node.Inside.of_mem_arguments otherListed).of_argumentValue otherPassed)
              (fun _ => .argument called otherListed otherPassed) coherent (kept.trans more)) ?_
            intro deps last _ coherent _
            exact SafelyGives.of_pure coherent trivial
      · intro bound final coherent more
        unfold bindArgument
        rw [passed]
        exact Fails.bind_left (fails final coherent (kept.trans more))
  | fallback called declared same unfilled =>
      refine traceNode_fails_of_call grounded coherent follows idle visits called ?_
      intro summary after declares sameKey coherent kept
      obtain rfl := distinct.eq_of_key_eq declares declared (sameKey.trans same.symm)
      have passing : forall argument value final, argument ∈ node.arguments ->
          argument.argumentValue = some value -> Coherent (nodesOf roots) final ->
          Kept after final -> Safe (nodesOf roots) faults program final (visitor.trace value) := by
        intro argument value final listed passed coherent more
        exact visits.part value final
          ((Node.Inside.of_mem_arguments listed).of_argumentValue passed)
          (fun _ => .argument called listed passed) coherent (kept.trans more)
      unfold bindArguments
      refine Fails.bind_right (foldlM_bindArgument_safe coherent passing) ?_
      intro bound final agrees coherent more
      refine Fails.foldlM_bindDefault faults unfilled coherent agrees.names ?_ ?_
      · intro value last unfilled coherent further
        exact visits.fallback summary.declaration value last follows
          (.fallback called declared same unfilled) declared unfilled coherent
          ((kept.trans more).trans further)
      · intro last coherent further
        exact fails last coherent ((kept.trans more).trans further)

/-- At no depth does the trace of an expression that falls back forever return. -/
theorem traceWithin_fails (grounded : Grounded (nodesOf roots) program)
    (distinct : KeysDistinct roots) (depth : Nat) :
    forall node memory, node ∈ nodesOf roots -> FallsBackForever program (nodesOf roots) node ->
      Coherent (nodesOf roots) memory -> memory.tracer.followsCalls = true ->
      memory.inProgress = [] -> Fails program memory (traceWithin depth node) := by
  induction depth with
  | zero =>
      intro node memory _ _ _ _ _
      exact trivial
  | succ depth inductionHypothesis =>
      intro node memory member forever coherent follows idle
      obtain ⟨next, flows, onward⟩ := forever.step
      obtain ⟨traces, definitions⟩ := traceWithin_keeps grounded depth
      rw [traceWithin]
      refine traceNode_fails grounded distinct coherent follows idle
        (.of_all traces definitions member) flows ?_
      intro after coherent kept
      exact inductionHypothesis next after (flows.occurs member) onward coherent
        (kept.followsCalls.trans follows) (kept.inProgress.trans idle)

/-- Where no default value leads back to itself, every trace that follows calls
returns dependencies or meets a node that was not annotated, whatever was traced
before. Where an expression leads to such a default value, its trace does not
return at any depth. -/
theorem trace_ends_unless_default_cycle {ends : List ScopeId} {annotator : Annotation.Annotator}
    (annotated : roots.mapM Annotation.annotateProgram Annotation.Annotator.start =
      .ok ends annotator) (rules : RuleSet) {memory : Memory}
    (reached : Reached (Program.ofAnnotated annotator rules roots) (nodesOf roots) memory)
    (parameters : List String) {node : Node} (member : node ∈ nodesOf roots) :
    let program := Program.ofAnnotated annotator rules roots
    let tracer := Tracer.fresh parameters true
    (NoDefaultCycle program (nodesOf roots) ->
      (∃ deps final after, withTracer tracer (trace node) program memory = .ok (deps, final) after) ∨
      ∃ fault after, withTracer tracer (trace node) program memory = .error fault after ∧
        Unannotated (nodesOf roots) program fault ∧ fault ≠ .tooDeep) ∧
    (KeysDistinct roots -> FallsBackForever program (nodesOf roots) node -> forall depth,
      ∃ fault after, withTracer tracer (traceWithin depth node) program memory =
        .error fault after ∧ (fault = .tooDeep ∨ Unannotated (nodesOf roots) program fault)) := by
  intro program tracer
  have grounded : Grounded (nodesOf roots) program := .of_annotated annotated rules
  obtain ⟨coherent, idle⟩ := reached.coherent grounded
  refine ⟨?_, ?_⟩
  · intro acyclic
    have safe : Concludes program memory (withTracer tracer (trace node)) (fun _ _ => True)
        (fun fault _ => Unannotated (nodesOf roots) program fault) := by
      refine (Concludes.withTracer_iff _ _).2 ?_
      exact Concludes.mono
        (trace_safe grounded rfl member (coherent.fresh parameters true) fun _ => acyclic)
        (fun _ _ _ => trivial) fun _ _ holds => holds.1
    cases outcome : withTracer tracer (trace node) program memory with
    | ok result after => exact Or.inl ⟨result.1, result.2, after, rfl⟩
    | error fault after =>
        have unannotated := safe.of_error outcome
        refine Or.inr ⟨fault, after, rfl, unannotated, ?_⟩
        obtain ⟨other, _, rfl⟩ := grounded.unannotated unannotated
        exact nofun
  · intro distinct forever depth
    have fails : Concludes program memory (withTracer tracer (traceWithin depth node))
        (fun _ _ => False) (fun fault _ => TraceFault (nodesOf roots) program fault) := by
      refine (Concludes.withTracer_iff _ _).2 ?_
      have started := coherent.fresh parameters true
      have failing := traceWithin_fails grounded distinct depth node (memory.withTracer tracer)
        member forever started rfl idle
      have faulty := (traceWithin_keeps grounded depth).1 node (memory.withTracer tracer) member
        started
      exact Concludes.mono (Concludes.both failing faulty) (fun _ _ holds => holds.1)
        fun _ _ holds => holds.2.1
    cases outcome : withTracer tracer (traceWithin depth node) program memory with
    | ok result after => exact (fails.of_ok outcome).elim
    | error fault after => exact ⟨fault, after, rfl, fails.of_error outcome⟩

/-- The default value in `recursiveDefaultFile`. -/
def recursiveDefault : Tree :=
  .node "function_call_expression" true 22 25 "default_value" [
    .node "name" true 22 23 "function" [], .node "arguments" true 23 25 "arguments" []]

/-- The call in `recursiveDefaultFile`. -/
def recursiveCall : Tree :=
  .node "function_call_expression" true 42 45 "" [
    .node "name" true 42 43 "function" [], .node "arguments" true 43 45 "arguments" []]

/-- The declaration in `recursiveDefaultFile`. -/
def recursiveDeclaration : Tree :=
  .node "function_definition" true 6 41 "" [
    .node "name" true 15 16 "name" [],
    .node "formal_parameters" true 16 26 "parameters" [
      .node "simple_parameter" true 17 25 "" [
        .node "variable_name" true 17 19 "name" [], recursiveDefault]],
    .node "compound_statement" true 27 41 "body" [
      .node "return_statement" true 29 39 "" [.node "variable_name" true 36 38 "" []]]]

/-- The file `<?php function f($a = f()) { return $a; } f();`. -/
def recursiveDefaultFile : Node :=
  ⟨⟨"default.php", "<?php function f($a = f()) \x7b return $a; \x7d f();".toUTF8⟩,
    .node "program" true 0 46 "" [
      recursiveDeclaration, .node "expression_statement" true 42 46 "" [recursiveCall]]⟩

/-- The call in `recursiveDefaultFile` is traced too deeply at every depth. -/
theorem trace_ends_unless_default_cycle_recursive :
    let call := recursiveDefaultFile.withTree recursiveCall
    ∃ ends annotator, [recursiveDefaultFile].mapM Annotation.annotateProgram
        Annotation.Annotator.start = .ok ends annotator ∧
      forall depth, ∃ after, withTracer (Tracer.fresh [] true) (traceWithin depth call)
        (Program.ofAnnotated annotator ∅ [recursiveDefaultFile]) Memory.start =
          .error .tooDeep after := by
  intro call
  let value := recursiveDefaultFile.withTree recursiveDefault
  let declaration := recursiveDefaultFile.withTree recursiveDeclaration
  have distinct : KeysDistinct [recursiveDefaultFile] := by
    unfold KeysDistinct
    decide +kernel
  have ran : Outcome.passes (fun _ annotator =>
      let program := Program.ofAnnotated annotator ∅ [recursiveDefaultFile]
      (calledFunction? program call).map Node.key == some declaration.key &&
        ((calledFunction? program value).map Node.key == some declaration.key &&
        (nodesOf [recursiveDefaultFile]).all fun node =>
          !(node.form = .variableName || node.form = .call) ||
            (program.registry.scopeOf program.globalScope node).isOk))
      ([recursiveDefaultFile].mapM Annotation.annotateProgram Annotation.Annotator.start) =
        true := by
    decide +kernel
  obtain ⟨ends, annotator, outcome, held⟩ := Outcome.exists_of_passes ran
  simp only [Bool.and_eq_true, beq_iff_eq, List.all_eq_true] at held
  obtain ⟨callCalled, valueCalled, located⟩ := held
  obtain ⟨callTarget, callFound, callKey⟩ := Option.map_eq_some_iff.1 callCalled
  obtain ⟨valueTarget, valueFound, valueKey⟩ := Option.map_eq_some_iff.1 valueCalled
  have file : recursiveDefaultFile ∈ nodesOf [recursiveDefaultFile] :=
    mem_nodesOf_of_root (List.mem_cons_self ..)
  have declared : declaration ∈ nodesOf [recursiveDefaultFile] :=
    mem_nodesOf_of_mem_children file (List.mem_cons_self ..)
  have member : call ∈ nodesOf [recursiveDefaultFile] :=
    mem_nodesOf_of_mem_children
      (mem_nodesOf_of_mem_children file (List.mem_cons_of_mem _ (List.mem_cons_self ..)))
      (List.mem_cons_self ..)
  have callDefaults : unfilledDefaults declaration call.arguments = [value] := rfl
  have valueDefaults : unfilledDefaults declaration value.arguments = [value] := rfl
  have first : FlowStep (Program.ofAnnotated annotator ∅ [recursiveDefaultFile])
      (nodesOf [recursiveDefaultFile]) call value :=
    .fallback callFound declared callKey.symm (by rw [callDefaults]; exact List.mem_cons_self ..)
  have again : FlowStep (Program.ofAnnotated annotator ∅ [recursiveDefaultFile])
      (nodesOf [recursiveDefaultFile]) value value :=
    .fallback valueFound declared valueKey.symm
      (by rw [valueDefaults]; exact List.mem_cons_self ..)
  refine ⟨ends, annotator, outcome, ?_⟩
  intro depth
  obtain ⟨fault, after, ended, tooDeep | ⟨node, listed, asked, unannotated⟩⟩ :=
    (trace_ends_unless_default_cycle outcome ∅ .start [] member).2 distinct
      ⟨value, .single first, .single again⟩ depth
  · subst tooDeep
    exact ⟨after, ended⟩
  · have found := located node listed
    rw [unannotated] at found
    rcases asked with reads | calls
    · simp [reads, Except.isOk, Except.toBool] at found
    · simp [calls, Except.isOk, Except.toBool] at found

end PhpTaint.Flow
