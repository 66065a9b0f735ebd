import PhpTaint.Proofs.Flow.Regime

/-!
# Traces obey lawful regimes

Each rule of tracing obeys a lawful regime if the traces and definitions do that it
starts. The rules are written against a visitor, so the visitor of every depth
obeys, by induction on the depth.
-/

namespace PhpTaint.Flow

open Scopes Syntax Rules

/-- The traces that a trace starts obey a regime. -/
structure Governed (regime : Regime) (program : Program) (visitor : Visitor) : Prop where
  trace : forall node memory, regime.admits node -> regime.Holds memory ->
    regime.Obeys program memory (visitor.trace node) regime.yields
  definition : forall name node memory, regime.follows name node -> regime.Holds memory ->
    regime.Obeys program memory (visitor.definition name node) regime.yields

section Variables

variable {regime : Regime} {program : Program} {memory : Memory} {visitor : Visitor} {node : Node}
  {name : String}

/-- A variable that is looked up gets a record that the regime keeps. -/
theorem lookupVariable_obeys (lawful : regime.Lawful program) (holds : regime.Holds memory)
    (admitted : regime.admits node) (reads : node.form = .variableName) :
    regime.Obeys program memory (lookupVariable name node) (regime.records name) := by
  refine Concludes.lookupVariable_of ?_ ?_ ?_
  · intro fault located
    exact ⟨lawful.unannotated node fault admitted (Or.inl reads) located, holds, Kept.refl memory⟩
  · intro scope binding located visible
    exact ⟨lawful.bound node scope name binding admitted located visible, holds, Kept.refl memory⟩
  · intro scope journal _ _
    exact ⟨lawful.unbound name, holds.of_eq rfl rfl rfl, ⟨rfl, rfl, rfl, rfl⟩⟩

/-- A variable that is read has a record that the regime keeps. -/
theorem resolveVariable_obeys (lawful : regime.Lawful program) (holds : regime.Holds memory)
    (admitted : regime.admits node) (reads : node.form = .variableName) :
    regime.Obeys program memory (resolveVariable name node) (regime.records name) := by
  refine Concludes.resolveVariable_of ?_ ?_ ?_
  · intro record found
    exact ⟨holds.informs.records name record found, holds, Kept.refl memory⟩
  · intro _ _
    exact ⟨lawful.parameter name, holds.keepRecord (lawful.parameter name), ⟨rfl, rfl, rfl, rfl⟩⟩
  · intro _ _
    refine Concludes.mono (lookupVariable_obeys lawful holds admitted reads) ?_ fun _ _ ends => ends
    rintro record after ⟨kept, holds, same⟩
    exact ⟨kept, holds.keepRecord kept, same.trans ⟨rfl, rfl, rfl, rfl⟩⟩

/-- A definition that is followed is active for that time only. -/
theorem followDefinition_obeys (lawful : regime.Lawful program)
    (governed : Governed regime program visitor) (holds : regime.Holds memory)
    (followed : regime.follows name node) :
    regime.Obeys program memory (followDefinition visitor.definition name node) regime.yields := by
  refine Concludes.followDefinition_of ?_ ?_ ?_
  · intro deps found
    exact ⟨holds.informs.traced _ deps found, holds, Kept.refl memory⟩
  · intro journal _ _
    exact ⟨lawful.composable.empty, holds.of_eq rfl rfl rfl, ⟨rfl, rfl, rfl, rfl⟩⟩
  · intro _ inactive
    have activated : regime.Holds (memory.activate node.key) := holds.of_eq rfl rfl rfl
    refine Concludes.mono (governed.definition name node _ followed activated) ?_ ?_
    · rintro deps after ⟨yielded, holds, kept⟩
      have free : regime.Holds (after.release node.key) := holds.of_eq rfl rfl rfl
      exact ⟨yielded, free.keepTraced node.key yielded,
        (kept.release inactive).trans ⟨rfl, rfl, rfl, rfl⟩⟩
    · rintro fault after ⟨failed, holds, kept⟩
      exact ⟨failed, holds.of_eq rfl rfl rfl, kept.release inactive⟩

/-- A record that the regime keeps is followed to dependencies that it allows. -/
theorem followRecord_obeys (lawful : regime.Lawful program)
    (governed : Governed regime program visitor) (holds : regime.Holds memory) {record : LeafRecord}
    (kept : regime.records name record) :
    regime.Obeys program memory (followRecord visitor.definition record) regime.yields := by
  refine Concludes.followRecord_of ?_ ?_
  · intro deps journal origin
    exact ⟨lawful.leaf name record _ deps kept origin, holds.of_eq rfl rfl rfl, ⟨rfl, rfl, rfl, rfl⟩⟩
  · intro definition origin
    exact followDefinition_obeys lawful governed holds
      (lawful.definition name record _ definition kept origin)

/-- A variable is traced to dependencies that the regime allows. -/
theorem traceVariable_obeys (lawful : regime.Lawful program)
    (governed : Governed regime program visitor) (holds : regime.Holds memory)
    (admitted : regime.admits node) (reads : node.form = .variableName) :
    regime.Obeys program memory (traceVariable visitor.definition node) regime.yields := by
  refine Concludes.traceVariable_of ?_
  refine Concludes.mono (resolveVariable_obeys lawful holds admitted reads) ?_ fun _ _ ends => ends
  rintro record after ⟨kept, holds, same⟩
  split
  · rename_i isInput
    obtain ⟨tainted, yielded⟩ := lawful.input node.text record isInput kept
    exact ⟨yielded, holds.keepRecord tainted, same.trans ⟨rfl, rfl, rfl, rfl⟩⟩
  · have visible : regime.Obeys program after
        (if isActive after.tracer record.definition then lookupVariable node.text node
          else pure record) (regime.records node.text) := by
      split
      · exact lookupVariable_obeys lawful holds admitted reads
      · exact .of_pure holds kept
    refine Concludes.mono (visible.later same) ?_ fun _ _ ends => ends
    rintro found final ⟨kept, holds, same⟩
    exact (followRecord_obeys lawful governed holds kept).later same

/-- What a variable held before an assignment is allowed by the regime. -/
theorem priorValue_obeys (lawful : regime.Lawful program)
    (governed : Governed regime program visitor) (holds : regime.Holds memory) {left : Node}
    (starts : forall start, formerVariable? left = some start -> regime.admits start) :
    regime.Obeys program memory (priorValue visitor.definition name left) regime.yields := by
  refine Concludes.priorValue_of ?_ ?_ ?_ ?_ ?_ ?_
  · intro _
    exact ⟨lawful.composable.empty, holds, Kept.refl memory⟩
  · intro start _ isInput
    exact ⟨lawful.composable.input name isInput, holds, Kept.refl memory⟩
  · intro start _ _ _
    exact ⟨lawful.composable.parameter name, holds, Kept.refl memory⟩
  · intro start fault chosen _ located
    have reads := Node.isVariable_iff.1 (Option.filter_eq_some_iff.1 chosen).2
    exact ⟨lawful.unannotated start fault (starts start chosen) (Or.inl reads) located, holds,
      Kept.refl memory⟩
  · intro start scope _ _ _ _
    exact ⟨lawful.composable.empty, holds, Kept.refl memory⟩
  · intro start scope binding chosen _ _ located visible
    exact followRecord_obeys lawful governed holds
      (lawful.bound start scope name binding (starts start chosen) located visible)

/-- A definition that gives no variable its value is not followed any further. -/
theorem traceDefinition_of_not_definition {good : Deps -> Memory -> Prop}
    {bad : Fault -> Memory -> Prop} (plain : isDefinition node = false)
    (gaveUp : good (unknownLeaf name (some (.referent node)))
      (memory.giveUp (node.kind ++ " binding") node)) :
    Concludes program memory (Flow.traceDefinition visitor name node) good bad := by
  unfold isDefinition at plain
  unfold Flow.traceDefinition
  cases construct : node.construct with
  | assignment | iteration | staticVariable =>
      rw [construct] at plain
      cases plain
  | program | namespaceDefinition | functionDefinition | methodDeclaration | closure
  | arrowFunction | classDeclaration | propertyDeclaration | constantDeclaration
  | globalDeclaration | unset | call | plain => exact gaveUp

/-- A definition that may be followed is traced to dependencies that the regime allows. -/
theorem traceDefinition_obeys (lawful : regime.Lawful program)
    (governed : Governed regime program visitor) (holds : regime.Holds memory)
    (followed : regime.follows name node) :
    regime.Obeys program memory (Flow.traceDefinition visitor name node) regime.yields := by
  cases defines : isDefinition node with
  | false =>
      exact traceDefinition_of_not_definition defines
        ⟨lawful.composable.unknown _ _, holds.of_eq rfl rfl rfl, ⟨rfl, rfl, rfl, rfl⟩⟩
  | true =>
      refine (Concludes.traceDefinition_iff defines).2 ?_
      have traced : regime.Obeys program memory ((definingPart? node).toList.mapM visitor.trace)
          fun results => forall deps, deps ∈ results -> regime.yields deps := by
        refine .mapM holds fun part listed after holds _ => ?_
        exact governed.trace part after
          (lawful.definingPart name node part followed (Option.mem_toList.1 listed)) holds
      refine Concludes.mono traced ?_ fun _ _ ends => ends
      rintro results after ⟨each, holds, kept⟩
      have value := lawful.composable.merge results each
      cases target : keptTarget? node with
      | none => exact ⟨value, holds, kept⟩
      | some left =>
          have former : regime.Obeys program after (priorValue visitor.definition name left)
              regime.yields :=
            priorValue_obeys lawful governed holds (lawful.former name node left · followed target)
          refine Concludes.mono (former.later kept) ?_ fun _ _ ends => ends
          rintro deps final ⟨yielded, ends⟩
          exact ⟨lawful.composable.mergeTwo _ _ yielded value, ends⟩

end Variables

section Calls

variable {regime : Regime} {program : Program} {memory : Memory} {visitor : Visitor}
  {node declaration : Node} {summary : Summary}

/-- A call of a summarized function answers with what its arguments and its returns
depend on. -/
theorem callDependencies_obeys (lawful : regime.Lawful program)
    (governed : Governed regime program visitor) (holds : regime.Holds memory)
    (sums : regime.Sums summary) {arguments : List Node}
    (admitted : forall argument, argument ∈ arguments -> regime.admits argument) :
    regime.Obeys program memory (callDependencies visitor.trace summary arguments)
      regime.yields := by
  have merges := lawful.composable.mergeTwo
  refine Concludes.callDependencies_of
    (fun bound after => Each regime.yields bound ∧ regime.Holds after ∧ Kept memory after)
    ⟨Each.empty, holds, Kept.refl memory⟩ ?_ ?_ ?_
  · rintro argument value bound after listed passed ⟨each, holds, kept⟩
    have part := lawful.argument argument value (admitted argument listed) passed
    refine Concludes.mono (Keeps.later kept (governed.trace value after part holds)) ?_
      fun _ _ ends => ends
    rintro deps final ⟨yielded, ends⟩
    exact ⟨each.bind merges argument value yielded, ends⟩
  · rintro receiver value bound after unfilled ⟨each, holds, kept⟩
    obtain ⟨parameter, listed, found⟩ := of_mem_defaultsBeside unfilled
    have default := lawful.default _ parameter value sums.declares listed found
    refine Concludes.mono (Keeps.later kept (governed.trace value after default holds)) ?_
      fun _ _ ends => ends
    rintro deps final ⟨yielded, ends⟩
    exact ⟨each.bindHanded merges receiver yielded, ends⟩
  · rintro bound after ⟨each, ends⟩
    exact ⟨lawful.composable.substitute summary bound sums.returns each, ends⟩

/-- What a function returns is traced line by line. -/
theorem traceReturns_obeys (lawful : regime.Lawful program)
    (governed : Governed regime program visitor) (holds : regime.Holds memory)
    (entered : regime.enters declaration) {body : Node}
    (found : declaration.child? "body" = some body) :
    regime.Obeys program memory (traceReturns visitor.trace declaration body)
      (Each regime.yields) := by
  have merges := lawful.composable.mergeTwo
  refine Concludes.traceReturns_of found
    (fun _ returns after => Each regime.yields returns ∧ regime.Holds after ∧ Kept memory after)
    ⟨Each.empty, holds, Kept.refl memory⟩ ?_ ?_
  · rintro done line value returns after listed ⟨each, holds, kept⟩
    have admitted := lawful.returned declaration value entered (List.mem_map.2 ⟨_, listed, rfl⟩)
    refine Concludes.mono (Keeps.later kept (governed.trace value after admitted holds)) ?_
      fun _ _ ends => ends
    rintro deps final ⟨yielded, ends⟩
    exact ⟨each.addReturn merges line yielded, ends⟩
  · rintro done line returns after ⟨each, ends⟩
    exact ⟨each.addReturn merges line lawful.composable.empty, ends⟩

/-- A summary is built by a tracer of its own; that of the caller is put back. -/
theorem buildSummary_obeys (lawful : regime.Lawful program)
    (governed : Governed regime program visitor) (holds : regime.Holds memory)
    (entered : regime.enters declaration) (idle : declaration.key ∉ memory.inProgress) :
    regime.Obeys program memory (buildSummary visitor.trace declaration) regime.Sums := by
  have declared := lawful.kept declaration entered
  cases found : declaration.child? "body" with
  | none =>
      exact (Concludes.buildSummary_without_body_iff found).2
        ⟨⟨declared, Each.empty, .fresh regime _ true⟩, holds, Kept.refl memory⟩
  | some body =>
      have begun : regime.Holds (memory.enter declaration) :=
        (holds.withTracer (.fresh regime declaration.parameterNames true)).of_eq rfl rfl rfl
      have left : forall after, regime.Holds after ->
          regime.Holds (after.leave memory declaration) := fun after later =>
        (later.withTracer holds.informs).of_eq rfl rfl rfl
      refine (Concludes.buildSummary_iff found).2 (Concludes.mono
        (traceReturns_obeys lawful governed begun entered found) ?_ ?_)
      · rintro returns after ⟨each, later, kept⟩
        exact ⟨⟨declared, each, later.informs⟩, (left after later).of_eq rfl rfl rfl,
          (kept.leave idle).trans ⟨rfl, rfl, rfl, rfl⟩⟩
      · rintro fault after ⟨failed, later, kept⟩
        exact ⟨failed, left after later, kept.leave idle⟩

/-- A summary is kept as the regime allows, whether it was built before or is built now. -/
theorem summaryOf_obeys (lawful : regime.Lawful program)
    (governed : Governed regime program visitor) (holds : regime.Holds memory)
    (entered : regime.enters declaration) (idle : declaration.key ∉ memory.inProgress) :
    regime.Obeys program memory (summaryOf visitor.trace declaration) regime.Sums := by
  refine Concludes.summaryOf_iff.2 ?_
  cases found : memory.summaries.find? declaration.key with
  | some summary => exact ⟨holds.sums _ summary found, holds, Kept.refl memory⟩
  | none =>
      refine Concludes.mono (buildSummary_obeys lawful governed holds entered idle) ?_
        fun _ _ ends => ends
      rintro summary after ⟨sums, later, kept⟩
      exact ⟨sums, later.keepSummary declaration sums, kept.trans ⟨rfl, rfl, rfl, rfl⟩⟩

/-- A call of a declared function that may be entered yields what the regime allows. -/
theorem followCall_obeys (lawful : regime.Lawful program)
    (governed : Governed regime program visitor) (holds : regime.Holds memory)
    (admitted : regime.admits node) (isCall : node.form = .call) (function : String)
    (arguments : forall argument, argument ∈ node.arguments -> regime.admits argument) :
    regime.Obeys program memory (followCall visitor.trace node function)
      fun followed => forall deps, followed = some deps -> regime.yields deps := by
  refine Concludes.followCall_of ?_ ?_ ?_ ?_
  · exact fun fault missing => ⟨lawful.unannotated node fault admitted (Or.inr isCall) missing,
      holds, Kept.refl memory⟩
  · intro scope fault located resolved
    split
    · exact ⟨nofun, holds, Kept.refl memory⟩
    · rename_i bound
      exact ⟨(lawful.undeclared node scope function fault admitted located resolved).resolve_left
        bound, holds, Kept.refl memory⟩
  · intro scope declaration _ _ _ text
    refine ⟨?_, holds.of_eq rfl rfl rfl, ⟨rfl, rfl, rfl, rfl⟩⟩
    rintro _ ⟨⟩
    exact lawful.composable.unknown _ _
  · intro scope declaration located resolved idle
    have callee := lawful.callee node scope function declaration admitted located resolved
    have entered : regime.Obeys program memory
        (summaryOf visitor.trace declaration >>= fun summary =>
          callDependencies visitor.trace summary node.arguments) regime.yields :=
      Keeps.bind (summaryOf_obeys lawful governed holds callee idle) fun summary after sums holds _ =>
        callDependencies_obeys lawful governed holds sums arguments
    refine Concludes.mono entered ?_ fun _ _ ends => ends
    rintro deps after ⟨yielded, kept⟩
    refine ⟨?_, kept⟩
    rintro _ ⟨⟩
    exact yielded

end Calls

section Expressions

variable {regime : Regime} {program : Program} {memory : Memory} {visitor : Visitor} {node : Node}

/-- A call is a leaf, or it is followed, or its arguments are traced. -/
theorem traceCall_obeys (lawful : regime.Lawful program)
    (governed : Governed regime program visitor) (holds : regime.Holds memory)
    (admitted : regime.admits node) (isCall : node.form = .call) :
    regime.Obeys program memory (traceCall visitor.trace node) regime.yields := by
  have joined := lawful.composable.join node
  unfold joinParts at joined
  rw [isCall] at joined
  have nothing : forall deps, deps ∈ ([] : List Deps) -> regime.yields deps :=
    fun _ listed => absurd listed List.not_mem_nil
  unfold Regime.Obeys Keeps
  cases callee : calleeOf program.rules node with
  | dynamic text =>
      rw [callee] at joined
      rw [Concludes.traceCall_dynamic_iff callee]
      exact ⟨joined [] nothing, holds.of_eq rfl rfl rfl, ⟨rfl, rfl, rfl, rfl⟩⟩
  | input name =>
      rw [callee] at joined
      rw [Concludes.traceCall_input_iff callee]
      exact ⟨joined [] nothing, holds, Kept.refl memory⟩
  | named target =>
      rw [callee] at joined
      rw [Concludes.traceCall_iff callee]
      have arguments : forall argument, argument ∈ node.arguments -> regime.admits argument := by
        intro argument listed
        refine lawful.part node argument admitted ?_
        simpa [valueParts, isCall, callee] using listed
      have followed : regime.Obeys program memory
          (if memory.tracer.followsCalls then followCall visitor.trace node target.text
            else pure none) fun followed => forall deps, followed = some deps -> regime.yields deps := by
        split
        · exact followCall_obeys lawful governed holds admitted isCall target.text arguments
        · refine .of_pure holds ?_
          rintro _ ⟨⟩
      refine Concludes.mono followed ?_ fun _ _ ends => ends
      rintro answer after ⟨yielded, holds, kept⟩
      cases answer with
      | some deps => exact ⟨yielded deps rfl, holds, kept⟩
      | none =>
          have traced : regime.Obeys program after (node.arguments.mapM visitor.trace)
              fun results => forall deps, deps ∈ results -> regime.yields deps :=
            .mapM holds fun argument listed final holds _ =>
              governed.trace argument final (arguments argument listed) holds
          refine Concludes.mono (traced.later kept) ?_ fun _ _ ends => ends
          rintro results final ⟨each, ends⟩
          exact ⟨joined results each, ends⟩

/-- Every admitted expression yields what the regime allows. -/
theorem traceNode_obeys (lawful : regime.Lawful program)
    (governed : Governed regime program visitor) (holds : regime.Holds memory)
    (admitted : regime.admits node) :
    regime.Obeys program memory (traceNode visitor node) regime.yields := by
  by_cases reads : node.form = .variableName
  · unfold traceNode
    rw [reads]
    exact traceVariable_obeys lawful governed holds admitted reads
  by_cases isCall : node.form = .call
  · unfold traceNode
    rw [isCall]
    exact traceCall_obeys lawful governed holds admitted isCall
  · refine (Concludes.traceNode_iff reads fun called => absurd called isCall).2 ?_
    have traced : regime.Obeys program (memory.noted program.rules node)
        ((valueParts program.rules node).mapM visitor.trace)
        fun results => forall deps, deps ∈ results -> regime.yields deps :=
      .mapM (holds.noted program.rules node) fun part listed after holds _ =>
        governed.trace part after (lawful.part node part admitted listed) holds
    refine Concludes.mono (traced.later (.noted memory program.rules node)) ?_ fun _ _ ends => ends
    rintro results after ⟨each, ends⟩
    exact ⟨lawful.composable.join node results each, ends⟩

/-- Whatever the depth, traces and definitions obey a lawful regime. -/
theorem Regime.Lawful.governed (lawful : regime.Lawful program) (depth : Nat) :
    Governed regime program (Flow.visitor depth) := by
  induction depth with
  | zero =>
      have tooDeep : forall memory, regime.Holds memory ->
          regime.Obeys program memory (throw .tooDeep : Tracing Deps) regime.yields :=
        fun memory holds => ⟨lawful.tooDeep, holds, Kept.refl memory⟩
      refine ⟨fun node memory _ holds => ?_, fun name node memory _ holds => ?_⟩
      · show regime.Obeys program memory (traceWithin 0 node) regime.yields
        rw [traceWithin]
        exact tooDeep memory holds
      · show regime.Obeys program memory (definitionWithin 0 name node) regime.yields
        rw [definitionWithin]
        exact tooDeep memory holds
  | succ depth inductionHypothesis =>
      refine ⟨fun node memory admitted holds => ?_, fun name node memory followed holds => ?_⟩
      · show regime.Obeys program memory (traceWithin (depth + 1) node) regime.yields
        rw [traceWithin]
        exact traceNode_obeys lawful inductionHypothesis holds admitted
      · show regime.Obeys program memory (definitionWithin (depth + 1) name node) regime.yields
        rw [definitionWithin]
        exact traceDefinition_obeys lawful inductionHypothesis holds followed

end Expressions

end PhpTaint.Flow
