import PhpTaint.Proofs.Flow.Safety

/-!
# One step of tracing is safe

If the traces that an expression or a definition starts are safe, then so is its
own. `SafeVisitor` lists which traces those are and in which memories they may
start; `traceNode_safe` and `traceDefinition_safe` are the two rules.
-/

namespace PhpTaint.Flow

open Scopes Syntax Rules

variable {nodes : List Node} {faults : Fault -> Prop} {program : Program} {memory : Memory}
  {node : Node} {name : String}

/-- The definitions that are not being followed are traced safely. -/
def SafeDefinitions (nodes : List Node) (faults : Fault -> Prop) (program : Program)
    (memory : Memory) (traceDefinition : String -> Node -> Tracing Deps) : Prop :=
  forall name definition after, definition ∈ nodes -> name ∈ definition.definedNames ->
    definition.key ∉ memory.tracer.active -> Coherent nodes after -> Kept memory after ->
      Safe nodes faults program (after.activate definition.key) (traceDefinition name definition)

/-- The traces that tracing a node may start are safe. -/
structure SafeVisitor (nodes : List Node) (faults : Fault -> Prop) (program : Program)
    (memory : Memory) (node : Node) (visitor : Visitor) : Prop where
  part : forall part after, part.Inside node ->
    (memory.tracer.followsCalls = true -> FlowStep program nodes node part) ->
    Coherent nodes after -> Kept memory after ->
      Safe nodes faults program after (visitor.trace part)
  definition : SafeDefinitions nodes faults program memory visitor.definition
  body : forall declaration part after, memory.tracer.followsCalls = true ->
    declaration ∈ nodes -> declaration.construct = .functionDefinition ->
    declaration.key ∉ memory.inProgress -> part.Inside declaration -> Coherent nodes after ->
    after.inProgress = declaration.key :: memory.inProgress -> after.tracer.active = [] ->
    after.tracer.followsCalls = true -> Safe nodes faults program after (visitor.trace part)
  fallback : forall declaration value after, memory.tracer.followsCalls = true ->
    FlowStep program nodes node value -> declaration ∈ nodes ->
    value ∈ unfilledDefaults declaration node.arguments -> Coherent nodes after ->
    Kept memory after -> Safe nodes faults program after (visitor.trace value)

/-- Definitions that are safe to follow remain so in a memory that keeps the marks. -/
theorem SafeDefinitions.later {traceDefinition : String -> Node -> Tracing Deps} {after : Memory}
    (definitions : SafeDefinitions nodes faults program memory traceDefinition)
    (kept : Kept memory after) :
    SafeDefinitions nodes faults program after traceDefinition := by
  intro name definition final member defines inactive coherent more
  rw [kept.active] at inactive
  exact definitions name definition final member defines inactive coherent (kept.trans more)

section Variables

variable {traceDefinition : String -> Node -> Tracing Deps}

/-- The record of a visible binding suits the name. -/
theorem suitsRecord_of_visible (grounded : Grounded nodes program) {scope : ScopeId}
    {binding : Binding Node} (visible : program.registry.visible scope name = some binding)
    (level : Level) : SuitsRecord nodes name (Record.leaf name level (some binding)) := by
  refine ⟨rfl, ?_⟩
  intro other same
  cases same
  exact grounded.sound.suits_of_visible visible

/-- What is followed for a binding suits the name as the binding does. -/
theorem suits_followedBinding (grounded : Grounded nodes program) {binding : Binding Node}
    (suits : binding.Suits nodes name) :
    (followedBinding program.registry binding).Suits nodes name := by
  rcases followedBinding_cases program.registry binding with same | ⟨followed, _⟩
  · rw [same]
    exact suits
  · cases binding with
    | globalReference target node owner =>
        obtain rfl : target = name := suits
        exact grounded.sound.suits_of_followReference followed
    | referent | parameter | superglobal | unset => cases followed

/-- The definition behind a record gives the name of the record a value. -/
theorem definition_of_recordOrigin (grounded : Grounded nodes program) {record : LeafRecord}
    (suits : SuitsRecord nodes name record) {parameters : List String} {definition : Node}
    (origin : recordOrigin program.registry parameters record = .definition definition) :
    definition ∈ nodes ∧ name ∈ definition.definedNames := by
  cases found : record.definition with
  | none =>
      unfold recordOrigin at origin
      rw [found] at origin
      cases origin
  | some binding =>
      rw [recordOrigin_of_bound parameters found] at origin
      have followed := suits_followedBinding grounded (suits.bound binding found)
      rw [eq_referent_of_bindingOrigin origin] at followed
      exact followed

/-- A variable that is annotated is looked up safely. -/
theorem lookupVariable_safe (grounded : Grounded nodes program)
    (faulty : forall fault, Unannotated nodes program fault -> faults fault)
    (coherent : Coherent nodes memory) (member : node ∈ nodes) (reads : node.form = .variableName) :
    SafelyGives nodes faults program memory (lookupVariable name node)
      (SuitsRecord nodes name) := by
  refine Concludes.lookupVariable_of ?_ ?_ ?_
  · intro fault located
    exact ⟨faulty fault ⟨node, member, Or.inl reads, located⟩, coherent, Kept.refl memory⟩
  · intro scope binding _ visible
    exact ⟨suitsRecord_of_visible grounded visible _, coherent, Kept.refl memory⟩
  · intro scope journal _ _
    exact ⟨⟨rfl, nofun⟩, coherent.of_eq rfl rfl, ⟨rfl, rfl, rfl, rfl⟩⟩

/-- A variable that is annotated is read safely. -/
theorem resolveVariable_safe (grounded : Grounded nodes program)
    (faulty : forall fault, Unannotated nodes program fault -> faults fault)
    (coherent : Coherent nodes memory) (member : node ∈ nodes) (reads : node.form = .variableName) :
    SafelyGives nodes faults program memory (resolveVariable name node)
      (SuitsRecord nodes name) := by
  refine Concludes.resolveVariable_of ?_ ?_ ?_
  · intro record found
    exact ⟨coherent.records name record found, coherent, Kept.refl memory⟩
  · intro _ _
    have suits : SuitsRecord nodes name (Record.unassigned name) := ⟨rfl, nofun⟩
    exact ⟨suits, coherent.keepRecord suits, ⟨rfl, rfl, rfl, rfl⟩⟩
  · intro _ _
    refine Concludes.mono (lookupVariable_safe grounded faulty coherent member reads) ?_
      fun _ _ holds => holds
    rintro record after ⟨suits, coherent, kept⟩
    exact ⟨suits, coherent.keepRecord suits, kept.trans ⟨rfl, rfl, rfl, rfl⟩⟩

/-- A definition that is followed is active for that time only. -/
theorem followDefinition_safe
    (definitions : SafeDefinitions nodes faults program memory traceDefinition)
    (coherent : Coherent nodes memory) {definition : Node} (member : definition ∈ nodes)
    (defines : name ∈ definition.definedNames) :
    Safe nodes faults program memory (followDefinition traceDefinition name definition) := by
  refine Concludes.followDefinition_of ?_ ?_ ?_
  · intro deps _
    exact ⟨trivial, coherent, Kept.refl memory⟩
  · intro journal _ _
    exact ⟨trivial, coherent.of_eq rfl rfl, ⟨rfl, rfl, rfl, rfl⟩⟩
  · intro _ inactive
    refine Concludes.mono
      (definitions name definition memory member defines inactive coherent (Kept.refl memory)) ?_ ?_
    · rintro deps after ⟨_, coherent, kept⟩
      exact ⟨trivial, coherent.of_eq rfl rfl, (kept.release inactive).trans ⟨rfl, rfl, rfl, rfl⟩⟩
    · rintro fault after ⟨faulty, coherent, kept⟩
      exact ⟨faulty, coherent.of_eq rfl rfl, kept.release inactive⟩

/-- A record that suits its name is followed safely. -/
theorem followRecord_safe (grounded : Grounded nodes program)
    (definitions : SafeDefinitions nodes faults program memory traceDefinition)
    (coherent : Coherent nodes memory) {record : LeafRecord}
    (suits : SuitsRecord nodes name record) :
    Safe nodes faults program memory (followRecord traceDefinition record) := by
  refine Concludes.followRecord_of ?_ ?_
  · intro deps journal _
    exact ⟨trivial, coherent.of_eq rfl rfl, ⟨rfl, rfl, rfl, rfl⟩⟩
  · intro definition origin
    obtain ⟨member, defines⟩ := definition_of_recordOrigin grounded suits origin
    rw [← suits.named] at defines
    exact followDefinition_safe definitions coherent member defines

/-- A variable that is annotated is traced safely. -/
theorem traceVariable_safe (grounded : Grounded nodes program)
    (faulty : forall fault, Unannotated nodes program fault -> faults fault)
    (definitions : SafeDefinitions nodes faults program memory traceDefinition)
    (coherent : Coherent nodes memory) (member : node ∈ nodes) (reads : node.form = .variableName) :
    Safe nodes faults program memory (traceVariable traceDefinition node) := by
  refine Concludes.traceVariable_of ?_
  refine Concludes.mono (resolveVariable_safe grounded faulty coherent member reads) ?_
    fun _ _ holds => holds
  rintro record after ⟨suits, coherent, kept⟩
  split
  · exact ⟨trivial, coherent.keepRecord ⟨suits.named, suits.bound⟩, kept.trans ⟨rfl, rfl, rfl, rfl⟩⟩
  · have visible : SafelyGives nodes faults program after
        (if isActive after.tracer record.definition then lookupVariable node.text node
          else pure record) (SuitsRecord nodes node.text) := by
      split
      · exact lookupVariable_safe grounded faulty coherent member reads
      · exact SafelyGives.of_pure coherent suits
    refine Concludes.mono (SafelyGives.later kept visible) ?_ fun _ _ holds => holds
    rintro found final ⟨suits, coherent, kept⟩
    exact SafelyGives.later kept
      (followRecord_safe grounded (definitions.later kept) coherent suits)

/-- What a variable held before an assignment is traced safely. -/
theorem priorValue_safe (grounded : Grounded nodes program)
    (faulty : forall fault, Unannotated nodes program fault -> faults fault)
    (definitions : SafeDefinitions nodes faults program memory traceDefinition)
    (coherent : Coherent nodes memory) {left : Node}
    (starts : forall start, formerVariable? left = some start -> start ∈ nodes) :
    Safe nodes faults program memory (priorValue traceDefinition name left) := by
  refine Concludes.priorValue_of ?_ ?_ ?_ ?_ ?_ ?_
  · intro _
    exact ⟨trivial, coherent, Kept.refl memory⟩
  · intro start _ _
    exact ⟨trivial, coherent, Kept.refl memory⟩
  · intro start _ _ _
    exact ⟨trivial, coherent, Kept.refl memory⟩
  · intro start fault chosen _ located
    have reads := Node.isVariable_iff.1 (Option.filter_eq_some_iff.1 chosen).2
    exact ⟨faulty fault ⟨start, starts start chosen, Or.inl reads, located⟩, coherent,
      Kept.refl memory⟩
  · intro start scope _ _ _ _
    exact ⟨trivial, coherent, Kept.refl memory⟩
  · intro start scope binding _ _ _ _ visible
    exact followRecord_safe grounded definitions coherent
      (suitsRecord_of_visible grounded visible _)

/-- A definition is traced safely if its parts and the other definitions are. -/
theorem traceDefinition_safe (grounded : Grounded nodes program)
    (faulty : forall fault, Unannotated nodes program fault -> faults fault) {visitor : Visitor}
    (coherent : Coherent nodes memory) (defines : isDefinition node = true)
    (starts : forall left start, keptTarget? node = some left -> formerVariable? left = some start ->
      start ∈ nodes)
    (parts : forall part after, part.Inside node -> Coherent nodes after -> Kept memory after ->
      Safe nodes faults program after (visitor.trace part))
    (definitions : SafeDefinitions nodes faults program memory visitor.definition) :
    Safe nodes faults program memory (Flow.traceDefinition visitor name node) := by
  refine (Concludes.traceDefinition_iff defines).2 ?_
  have traced : Safe nodes faults program memory
      ((definingPart? node).toList.mapM visitor.trace) := by
    refine SafelyGives.mapM coherent ?_
    intro part member after coherent kept
    exact parts part after (inside_of_definingPart? (Option.mem_toList.1 member)) coherent kept
  refine Concludes.mono traced ?_ fun _ _ holds => holds
  rintro results after ⟨_, coherent, kept⟩
  cases target : keptTarget? node with
  | none => exact ⟨trivial, coherent, kept⟩
  | some left =>
      exact SafelyGives.later kept (priorValue_safe grounded faulty (definitions.later kept) coherent
        fun start => starts left start target)

end Variables

section Calls

variable {trace : Node -> Tracing Deps} {summary : Summary}

/-- Binding arguments is safe if tracing them is, and fills the names that the
shape of the call says. -/
theorem foldlM_bindArgument_safe (coherent : Coherent nodes memory) {arguments : List Node}
    (values : forall argument value after, argument ∈ arguments ->
      argument.argumentValue = some value -> Coherent nodes after -> Kept memory after ->
        Safe nodes faults program after (trace value)) :
    SafelyGives nodes faults program memory (arguments.foldlM (bindArgument trace summary) ⟨∅, 0⟩)
      (fun bound =>
        bound.Agrees (arguments.foldl (Filled.add summary.declaration) ⟨[], 0⟩)) := by
  refine Concludes.foldlM_bindArgument_of
    (fun _ after => Coherent nodes after ∧ Kept memory after) ⟨coherent, Kept.refl memory⟩ ?_
  rintro argument value bound after member passed ⟨coherent, kept⟩
  exact Concludes.mono (SafelyGives.later kept (values argument value after member passed coherent
    kept)) (fun _ _ ends => ends.2) fun _ _ faulty => faulty

/-- Tracing return statements is safe if tracing what stands in the declaration is. -/
theorem traceReturns_safe (coherent : Coherent nodes memory) {declaration body : Node}
    (found : declaration.child? "body" = some body)
    (parts : forall part after, part.Inside declaration -> Coherent nodes after ->
      Kept memory after -> Safe nodes faults program after (trace part)) :
    Safe nodes faults program memory (traceReturns trace declaration body) := by
  refine Concludes.traceReturns_of found
    (fun _ _ after => True ∧ Coherent nodes after ∧ Kept memory after)
    ⟨trivial, coherent, Kept.refl memory⟩ ?_ fun _ _ _ _ holds => holds
  rintro done line value returns after listed ⟨_, coherent, kept⟩
  exact SafelyGives.later kept (parts value after (inside_of_mem_returnedOn listed) coherent kept)

/-- Building a summary is safe if tracing what stands in the declaration is. -/
theorem buildSummary_safe (coherent : Coherent nodes memory) {declaration : Node}
    (idle : declaration.key ∉ memory.inProgress)
    (body : forall part after, part.Inside declaration -> Coherent nodes after ->
      after.inProgress = declaration.key :: memory.inProgress -> after.tracer.active = [] ->
      after.tracer.followsCalls = true -> Safe nodes faults program after (trace part)) :
    SafelyGives nodes faults program memory (buildSummary trace declaration)
      (fun summary => summary.declaration = declaration) := by
  cases found : declaration.child? "body" with
  | none => exact (Concludes.buildSummary_without_body_iff found).2 ⟨rfl, coherent, Kept.refl memory⟩
  | some block =>
      have begun : Coherent nodes (memory.begin declaration.key) := coherent.of_eq rfl rfl
      have returned : Safe nodes faults program (memory.enter declaration)
          (traceReturns trace declaration block) :=
        traceReturns_safe (begun.fresh _ _) found fun part after inside coherent kept =>
          body part after inside coherent kept.inProgress kept.active kept.followsCalls
      have left : forall after : Memory, Coherent nodes after ->
          Coherent nodes (after.leave memory declaration) := fun after learned =>
        (learned.withTracer coherent).of_eq rfl rfl
      refine (Concludes.buildSummary_iff found).2 (Concludes.mono returned ?_ ?_)
      · rintro returns after ⟨_, learned, kept⟩
        have kept := kept.leave idle
        exact ⟨rfl, (left after learned).of_eq rfl rfl, kept.trans ⟨rfl, rfl, rfl, rfl⟩⟩
      · rintro fault after ⟨faulty, learned, kept⟩
        exact ⟨faulty, left after learned, kept.leave idle⟩

/-- The summary of a declaration is that of a node with its key. -/
theorem summaryOf_safe (coherent : Coherent nodes memory) {declaration : Node}
    (member : declaration ∈ nodes) (idle : declaration.key ∉ memory.inProgress)
    (body : forall part after, part.Inside declaration -> Coherent nodes after ->
      after.inProgress = declaration.key :: memory.inProgress -> after.tracer.active = [] ->
      after.tracer.followsCalls = true -> Safe nodes faults program after (trace part)) :
    SafelyGives nodes faults program memory (summaryOf trace declaration)
      (fun summary =>
        summary.declaration ∈ nodes ∧ summary.declaration.key = declaration.key) := by
  refine Concludes.summaryOf_iff.2 ?_
  cases found : memory.summaries.find? declaration.key with
  | some summary =>
      exact ⟨coherent.summaries declaration.key summary found, coherent, Kept.refl memory⟩
  | none =>
      refine Concludes.mono (buildSummary_safe coherent idle body) ?_ fun _ _ faulty => faulty
      rintro summary after ⟨rfl, coherent, kept⟩
      exact ⟨⟨member, rfl⟩, coherent.keepSummary member rfl, kept.trans ⟨rfl, rfl, rfl, rfl⟩⟩

/-- What is to be shown of following a call where the scopes are in order: a function
that can be found is among the nodes, and any other is left to the caller. -/
theorem Grounded.followCall_of (grounded : Grounded nodes program) {callee : Node}
    (isCall : node.form = .call) (named : calleeOf program.rules node = .named callee)
    {good : Option Deps -> Memory -> Prop} {bad : Fault -> Memory -> Prop}
    (unlocated : forall fault, program.registry.scopeOf program.globalScope node = .error fault ->
      bad fault memory)
    (undeclared : calledFunction? program node = none -> good none memory)
    (recursive : forall declaration, calledFunction? program node = some declaration ->
      declaration.key ∈ memory.inProgress -> forall text,
        good (some (unknownLeaf (normalizeName callee.text ++ "()") (some (.referent node))))
          (memory.note text))
    (entered : forall declaration, calledFunction? program node = some declaration ->
      declaration ∈ nodes -> declaration.construct = .functionDefinition ->
      declaration.key ∉ memory.inProgress ->
        Concludes program memory
          (summaryOf trace declaration >>= fun summary =>
            callDependencies trace summary node.arguments)
          (fun deps after => good (some deps) after) bad) :
    Concludes program memory (followCall trace node callee.text) good bad := by
  have called : forall scope,
      program.registry.scopeOf program.globalScope node = .ok scope ->
      calledFunction? program node =
        (program.registry.resolveFunction scope callee.text).toOption := by
    intro scope located
    simp [calledFunction?, isCall, named, located]
  refine Concludes.followCall_of unlocated ?_ ?_ ?_
  · intro scope fault located resolved
    have answer := grounded.sound.resolveFunction_answer (grounded.places node scope located)
      callee.text
    have absent := called scope located
    rw [resolved] at answer absent
    have unbound : fault.isUnbound = true := answer
    rw [if_pos unbound]
    exact undeclared absent
  · intro scope declaration located resolved listed
    have present := called scope located
    rw [resolved] at present
    exact recursive declaration present listed
  · intro scope declaration located resolved idle
    have answer := grounded.sound.resolveFunction_answer (grounded.places node scope located)
      callee.text
    have present := called scope located
    rw [resolved] at answer present
    exact entered declaration present answer.1 answer.2 idle

/-- A call of a function that is not declared is left to the caller. -/
theorem followCall_undeclared (grounded : Grounded nodes program) {callee : Node}
    (isCall : node.form = .call) (named : calleeOf program.rules node = .named callee)
    (undeclared : calledFunction? program node = none) :
    Concludes program memory (followCall trace node callee.text)
      (fun answer after => answer = none ∧ after = memory)
      (fun fault after => program.registry.scopeOf program.globalScope node = .error fault ∧
        after = memory) := by
  refine grounded.followCall_of isCall named ?_ ?_ ?_ ?_
  · exact fun fault missing => ⟨missing, rfl⟩
  · exact fun _ => ⟨rfl, rfl⟩
  · intro declaration called
    rw [undeclared] at called
    cases called
  · intro declaration called
    rw [undeclared] at called
    cases called

/-- Where no declared function is called, tracing an expression is tracing its parts
and joining what they depend on, or it fails for a call that was not annotated. -/
theorem traceNode_uncalled (grounded : Grounded nodes program) {visitor : Visitor}
    {good : Deps -> Memory -> Prop} {bad : Fault -> Memory -> Prop}
    (notVariable : node.form ≠ .variableName) (undeclared : calledFunction? program node = none)
    (unannotated : node.form = .call -> forall fault,
      program.registry.scopeOf program.globalScope node = .error fault -> bad fault memory)
    (parts : Concludes program (memory.noted program.rules node)
      ((valueParts program.rules node).mapM visitor.trace)
      (fun results after => good (joinParts program.rules node results) after) bad) :
    Concludes program memory (traceNode visitor node) good bad := by
  by_cases followed : node.form = .call ∧ memory.tracer.followsCalls = true
  · obtain ⟨isCall, follows⟩ := followed
    cases callee : calleeOf program.rules node with
    | named target =>
        have unnoted : memory.noted program.rules node = memory := by
          simp [Memory.noted, gapKind?, isCall, callee]
        have listed : valueParts program.rules node = node.arguments := by
          simp [valueParts, isCall, callee]
        rw [unnoted, listed] at parts
        unfold traceNode
        rw [isCall]
        refine (Concludes.traceCall_iff callee).2 ?_
        rw [if_pos follows]
        refine Concludes.mono (followCall_undeclared grounded isCall callee undeclared) ?_ ?_
        · rintro answer after ⟨rfl, rfl⟩
          simpa [joinParts, isCall, callee] using parts
        · rintro fault after ⟨missing, rfl⟩
          exact unannotated isCall fault missing
    | dynamic text =>
        unfold traceNode
        rw [isCall]
        refine (Concludes.traceCall_dynamic_iff callee).2 ?_
        simpa [valueParts, joinParts, Memory.noted, gapKind?, isCall, callee] using parts
    | input label =>
        unfold traceNode
        rw [isCall]
        refine (Concludes.traceCall_input_iff callee).2 ?_
        simpa [valueParts, joinParts, Memory.noted, gapKind?, isCall, callee] using parts
  · refine (Concludes.traceNode_iff notVariable ?_).2 parts
    intro isCall
    exact Bool.eq_false_iff.2 fun follows => followed ⟨isCall, follows⟩

/-- Where no declared function is called and calls are annotated, tracing an
expression is tracing its parts and joining what they depend on. -/
theorem traceNode_undeclared (grounded : Grounded nodes program) {visitor : Visitor}
    {good : Deps -> Memory -> Prop} {bad : Fault -> Memory -> Prop}
    (notVariable : node.form ≠ .variableName) (undeclared : calledFunction? program node = none)
    (annotated : node.form = .call ->
      ∃ scope, program.registry.scopeOf program.globalScope node = .ok scope)
    (parts : Concludes program (memory.noted program.rules node)
      ((valueParts program.rules node).mapM visitor.trace)
      (fun results after => good (joinParts program.rules node results) after) bad) :
    Concludes program memory (traceNode visitor node) good bad := by
  refine traceNode_uncalled grounded notVariable undeclared ?_ parts
  intro isCall fault missing
  obtain ⟨scope, located⟩ := annotated isCall
  rw [located] at missing
  cases missing

/-- A call traces its arguments and the default values it falls back on. -/
theorem callDependencies_safe {start : Memory} {visitor : Visitor} {summary : Summary}
    {declaration : Node} (coherent : Coherent nodes memory)
    (visits : SafeVisitor nodes faults program start node visitor)
    (follows : start.tracer.followsCalls = true)
    (called : calledFunction? program node = some declaration)
    (declared : summary.declaration ∈ nodes) (sameKey : summary.declaration.key = declaration.key)
    (kept : Kept start memory) :
    Safe nodes faults program memory (callDependencies visitor.trace summary node.arguments) := by
  refine Concludes.callDependencies_of (fun _ after => Coherent nodes after ∧ Kept memory after)
    ⟨coherent, Kept.refl memory⟩ ?_ ?_ fun _ _ ends => ⟨trivial, ends⟩
  · rintro argument value _ after listed passed ⟨coherent, more⟩
    have inside := (Node.Inside.of_mem_arguments listed).of_argumentValue passed
    exact Concludes.mono (SafelyGives.later more (visits.part value after inside
      (fun _ => .argument called listed passed) coherent (kept.trans more)))
      (fun _ _ ends => ends.2) fun _ _ faulty => faulty
  · rintro _ value _ after unfilled ⟨coherent, more⟩
    exact Concludes.mono (SafelyGives.later more (visits.fallback summary.declaration value after
      follows (.fallback called declared sameKey unfilled) declared unfilled coherent
      (kept.trans more))) (fun _ _ ends => ends.2) fun _ _ faulty => faulty

/-- A call that is followed traces its arguments, the default values it falls
back on, and what stands in the function it calls. -/
theorem followCall_safe (grounded : Grounded nodes program)
    (faulty : forall fault, Unannotated nodes program fault -> faults fault)
    (coherent : Coherent nodes memory) (member : node ∈ nodes)
    (follows : memory.tracer.followsCalls = true) {callee : Node}
    (isCall : node.form = .call) (named : calleeOf program.rules node = .named callee)
    {visitor : Visitor} (visits : SafeVisitor nodes faults program memory node visitor) :
    SafelyGives nodes faults program memory (followCall visitor.trace node callee.text)
      (fun followed => followed = none -> calledFunction? program node = none) := by
  refine grounded.followCall_of isCall named ?_ ?_ ?_ ?_
  · exact fun fault missing =>
      ⟨faulty fault ⟨node, member, Or.inr isCall, missing⟩, coherent, Kept.refl memory⟩
  · exact fun undeclared => ⟨fun _ => undeclared, coherent, Kept.refl memory⟩
  · intro declaration _ _ text
    refine ⟨?_, coherent.of_eq rfl rfl, ⟨rfl, rfl, rfl, rfl⟩⟩
    rintro ⟨⟩
  · intro declaration called declares isFunction idle
    have entered : Safe nodes faults program memory
        (summaryOf visitor.trace declaration >>= fun summary =>
          callDependencies visitor.trace summary node.arguments) := by
      refine SafelyGives.bind (summaryOf_safe coherent declares idle fun part after =>
        visits.body declaration part after follows declares isFunction idle) ?_
      rintro summary after ⟨declared, sameKey⟩ coherent kept
      exact callDependencies_safe coherent visits follows called declared sameKey kept
    refine Concludes.mono entered ?_ fun _ _ faulty => faulty
    rintro deps after ⟨_, safe⟩
    refine ⟨?_, safe⟩
    intro absent
    cases absent

end Calls

/-- An expression is traced safely if the traces it starts are safe. -/
theorem traceNode_safe (grounded : Grounded nodes program)
    (faulty : forall fault, Unannotated nodes program fault -> faults fault)
    (coherent : Coherent nodes memory) (member : node ∈ nodes) {visitor : Visitor}
    (visits : SafeVisitor nodes faults program memory node visitor) :
    Safe nodes faults program memory (traceNode visitor node) := by
  -- the parts of an expression that calls no declared function
  have parts : forall before, Coherent nodes before -> Kept memory before ->
      (memory.tracer.followsCalls = true -> calledFunction? program node = none) ->
      Safe nodes faults program before ((valueParts program.rules node).mapM visitor.trace) := by
    intro before coherent kept undeclared
    refine SafelyGives.mapM coherent ?_
    intro part listed after coherent more
    exact visits.part part after (inside_of_mem_valueParts listed)
      (fun follows => .part (undeclared follows) listed) coherent (kept.trans more)
  by_cases isVariable : node.form = .variableName
  · unfold traceNode
    rw [isVariable]
    exact traceVariable_safe grounded faulty visits.definition coherent member isVariable
  · by_cases followed : node.form = .call ∧ memory.tracer.followsCalls = true
    · obtain ⟨isCall, follows⟩ := followed
      unfold traceNode
      rw [isCall]
      cases callee : calleeOf program.rules node with
      | dynamic text =>
          refine (Concludes.traceCall_dynamic_iff callee).2 ?_
          exact ⟨trivial, coherent.of_eq rfl rfl, ⟨rfl, rfl, rfl, rfl⟩⟩
      | input label =>
          refine (Concludes.traceCall_input_iff callee).2 ?_
          exact ⟨trivial, coherent, Kept.refl memory⟩
      | named target =>
          refine (Concludes.traceCall_iff callee).2 ?_
          rw [if_pos follows]
          refine Concludes.mono
            (followCall_safe grounded faulty coherent member follows isCall callee visits) ?_
            fun _ _ holds => holds
          rintro answer after ⟨undeclared, coherent, kept⟩
          cases answer with
          | some deps => exact ⟨trivial, coherent, kept⟩
          | none =>
              have listed : valueParts program.rules node = node.arguments := by
                simp [valueParts, isCall, callee]
              rw [← listed]
              exact SafelyGives.later kept (parts after coherent kept fun _ => undeclared rfl)
    · have unfollowed : node.form = .call -> memory.tracer.followsCalls = false := by
        intro isCall
        exact Bool.eq_false_iff.2 fun follows => followed ⟨isCall, follows⟩
      obtain ⟨noted, kept⟩ := coherent.noted program.rules node
      refine (Concludes.traceNode_iff isVariable unfollowed).2 ?_
      refine SafelyGives.later kept (parts _ noted kept ?_)
      intro follows
      unfold calledFunction?
      rw [if_neg fun isCall => followed ⟨isCall, follows⟩]

end PhpTaint.Flow
