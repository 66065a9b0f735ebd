import PhpTaint.Proofs.Flow.Depth
import PhpTaint.Proofs.Flow.StraightLine

/-!
# Tracing backward is evaluating forward

A trace of a straight-line program follows a variable back to its assignment, and
keeps what it has learned on the way: the record of every name, the definitions
that are being followed, and what the others were traced to. None of this shows
in the result. The record of a name is the one it has wherever it is read, a
definition that is being followed is not met again, because an assignment leads
to earlier ones only, and what was traced is what the program stores.
-/

namespace PhpTaint.Flow.Forward

open Scopes Syntax Rules
open Annotation.Dictionary (isInert)

variable {program : Program} {rules : RuleSet} {root node value part : Node} {name : String}
  {steps done rest : List Step} {memory : Memory} {visitor : Visitor}

/-- The parts of an expression stand beneath it, except those of an assignment. -/
theorem beneath_of_mem_valueParts
    (named : forall inner, inner ∈ node.preorder -> inner.partsNamed = true)
    (notAssignment : node.form ≠ .assignment) (member : part ∈ valueParts rules node) :
    part.Beneath node := by
  have self := named node node.self_mem_preorder
  cases valuePart_of_mem member with
  | child _ listed => exact .of_mem_namedChildren listed
  | element _ listed _ value =>
      exact Node.Beneath.trans (.of_mem_namedChildren value) (.of_mem_namedChildren listed)
  | container _ found =>
      exact .of_mem_namedChildren (Node.mem_namedChildren_of_containerPart? self found)
  | argument _ listed =>
      unfold Node.arguments at listed
      split at listed
      · rename_i list found
        exact Node.Beneath.trans (.of_mem_namedChildren (List.mem_filter.1 listed).1)
          (.of_mem_namedChildren (Node.mem_namedChildren_of_child? self (by decide) found))
      · cases listed
  | labelled _ listed found =>
      have known : ["body", "condition", "alternative", "value"] ⊆ partLabels := by decide
      exact .of_mem_namedChildren (Node.mem_namedChildren_of_child? self (known listed) found)
  | side assigns _ _ => exact absurd assigns notAssignment

/-- An expression whose variables are bound by some first steps of the program, if
they are bound by any. -/
structure Settled (program : Program) (steps done : List Step) (node : Node) : Prop where
  first : ∃ rest, steps = done ++ rest
  inert : isInert node = true
  named : forall inner, inner ∈ node.preorder -> inner.partsNamed = true
  located : forall part : Node, part.Beneath node ->
    ∃ scope, program.registry.scopeOf program.globalScope part = .ok scope ∧
      (part.isVariable = true -> program.registry.visible scope part.text =
        (bindings program.globalScope steps).find? part.text)
  earlier : forall part : Node, part.Beneath node -> part.isVariable = true -> forall definition,
    (bindings program.globalScope steps).find? part.text = some (.referent definition) ->
      ∃ value, Step.assignment part.text definition value ∈ done

/-- What lies beneath a settled expression is settled. -/
theorem Settled.beneath (settled : Settled program steps done node) (beneath : part.Beneath node) :
    Settled program steps done part where
  first := settled.first
  inert := Annotation.Dictionary.isInert_of_mem_preorder settled.inert beneath.mem_preorder
  named := fun inner below => settled.named inner (Node.mem_preorder_trans below beneath.mem_preorder)
  located := fun inner inside => settled.located inner (inside.trans beneath)
  earlier := fun inner inside => settled.earlier inner (inside.trans beneath)

/-- An expression that binds nothing is no assignment. -/
theorem form_ne_assignment (inert : isInert node = true) : node.form ≠ .assignment := by
  intro form
  have self := List.all_eq_true.1 inert node node.self_mem_preorder
  rw [Node.construct, Construct.eq_assignment_of_form form] at self
  cases self

/-- The parts of the value of a settled expression are settled. -/
theorem Settled.valuePart (settled : Settled program steps done node)
    (member : part ∈ valueParts rules node) : Settled program steps done part :=
  settled.beneath
    (beneath_of_mem_valueParts settled.named (form_ne_assignment settled.inert) member)

/-- The record of a name that has a binding, or has none, wherever it is read. -/
def lookedRecord (name : String) : Option (Binding Node) -> LeafRecord
  | some binding => Record.leaf name .unassigned (some binding)
  | none => Record.leaf name .unknown none

/-- A record of a name: the one that a lookup gives, or that of an input. -/
def IsRecordOf (rules : RuleSet) (name : String) (binding : Option (Binding Node))
    (record : LeafRecord) : Prop :=
  record = lookedRecord name binding ∨
    (rules.isInputVariable name = true ∧ record = Record.leaf name .tainted binding)

/-- What a memory has learned agrees with how the program ends. -/
structure Recalls (program : Program) (steps : List Step) (memory : Memory) : Prop where
  parameters : memory.tracer.parameters = []
  records : forall name record, memory.tracer.records.find? name = some record ->
    IsRecordOf program.rules name ((bindings program.globalScope steps).find? name) record
  traced : forall key deps, memory.tracer.traced.find? key = some deps ->
    forall name node value, Step.assignment name node value ∈ steps -> node.key = key ->
      (execute program.rules program.globalScope steps).find? name = some deps

/-- None of the assignments in some steps is being followed. -/
def Unfollowed (steps : List Step) (memory : Memory) : Prop :=
  forall name node value, Step.assignment name node value ∈ steps ->
    node.key ∉ memory.tracer.active

/-- Whether steps are being followed is a matter of the marks alone. -/
theorem Unfollowed.of_active_eq {after : Memory} (unfollowed : Unfollowed steps memory)
    (same : after.tracer.active = memory.tracer.active) : Unfollowed steps after := by
  intro name node value listed
  rw [same]
  exact unfollowed name node value listed

/-- A trace ends with some dependencies, or it is nested too deeply. -/
def Yields (program : Program) (steps : List Step) (memory : Memory) (step : Tracing Deps)
    (deps : Deps) : Prop :=
  Concludes program memory step
    (fun result after => result = deps ∧ Recalls program steps after ∧
      after.tracer.active = memory.tracer.active)
    (fun fault _ => fault = .tooDeep)

/-- The value of an expression when the program has ended. -/
abbrev finalValue (program : Program) (steps : List Step) (node : Node) : Deps :=
  evaluate program.rules program.globalScope (execute program.rules program.globalScope steps) node

/-- A visitor traces expressions and assignments to their values. -/
structure Performs (program : Program) (steps : List Step) (visitor : Visitor) : Prop where
  trace : forall done node memory, Settled program steps done node ->
    Recalls program steps memory -> Unfollowed done memory ->
      Yields program steps memory (visitor.trace node) (finalValue program steps node)
  definition : forall done name node value rest memory,
    steps = done ++ .assignment name node value :: rest -> Recalls program steps memory ->
    Unfollowed done memory ->
      Yields program steps memory (visitor.definition name node) (finalValue program steps value)

namespace Recalls

/-- What is recalled is a matter of the tracer's parameters, records and traced definitions. -/
theorem of_eq {after : Memory} (recalls : Recalls program steps memory)
    (parameters : after.tracer.parameters = memory.tracer.parameters)
    (records : after.tracer.records = memory.tracer.records)
    (traced : after.tracer.traced = memory.tracer.traced) : Recalls program steps after := by
  obtain ⟨noParameters, learned, followed⟩ := recalls
  refine ⟨parameters.trans noParameters, ?_, ?_⟩
  · rw [records]
    exact learned
  · rw [traced]
    exact followed

/-- A note of the unannotated recalls nothing. -/
theorem noted (recalls : Recalls program steps memory) (rules : RuleSet) (node : Node) :
    Recalls program steps (memory.noted rules node) ∧
      (memory.noted rules node).tracer.active = memory.tracer.active := by
  unfold Memory.noted
  split
  · exact ⟨recalls.of_eq rfl rfl rfl, rfl⟩
  · exact ⟨recalls, rfl⟩

/-- A record of the binding that the steps have left may be kept. -/
theorem keepRecord (recalls : Recalls program steps memory) {record : LeafRecord}
    (isRecord : IsRecordOf program.rules name
      ((bindings program.globalScope steps).find? name) record) :
    Recalls program steps (memory.keepRecord name record) := by
  refine ⟨recalls.parameters, ?_, recalls.traced⟩
  intro other found listed
  have inserted : (memory.tracer.records.insert name record).find? other = some found := listed
  rw [Table.find?_insert] at inserted
  split at inserted
  · rename_i equal
    subst equal
    cases inserted
    exact isRecord
  · exact recalls.records other found inserted

/-- The dependencies that the steps give a definition may be kept. -/
theorem keepTraced (recalls : Recalls program steps memory) {key : Key} {deps : Deps}
    (same : forall name node value, Step.assignment name node value ∈ steps -> node.key = key ->
      (execute program.rules program.globalScope steps).find? name = some deps) :
    Recalls program steps (memory.keepTraced key deps) := by
  refine ⟨recalls.parameters, recalls.records, ?_⟩
  intro other found listed
  have inserted : (memory.tracer.traced.insert key deps).find? other = some found := listed
  rw [Table.find?_insert] at inserted
  split at inserted
  · rename_i equal
    subst equal
    cases inserted
    exact same
  · exact recalls.traced other found inserted

end Recalls

/-- An input is untrusted, whichever record of it is known. -/
theorem IsRecordOf.tainted {binding : Option (Binding Node)} {record : LeafRecord}
    (isRecord : IsRecordOf rules name binding record) :
    { record with level := .tainted } = Record.leaf name .tainted binding := by
  rcases isRecord with rfl | ⟨_, rfl⟩
  · cases binding <;> rfl
  · rfl

/-- The record of a variable that is no input is the one of its binding. -/
theorem IsRecordOf.looked {binding : Option (Binding Node)} {record : LeafRecord}
    (isRecord : IsRecordOf rules name binding record)
    (notInput : rules.isInputVariable name = false) : record = lookedRecord name binding := by
  rcases isRecord with same | ⟨isInput, _⟩
  · exact same
  · rw [notInput] at isInput
    cases isInput

/-- A variable that is read has its record, now or from before. -/
theorem resolveVariable_recalls (settled : Settled program steps done node)
    (isVariable : node.isVariable = true) (recalls : Recalls program steps memory) :
    Concludes program memory (resolveVariable node.text node)
      (fun record after => IsRecordOf program.rules node.text
          ((bindings program.globalScope steps).find? node.text) record ∧
        Recalls program steps after ∧ after.tracer.active = memory.tracer.active)
      (fun fault _ => fault = .tooDeep) := by
  obtain ⟨scope, located, visible⟩ := settled.located node (.refl node)
  refine Concludes.resolveVariable_of ?_ ?_ ?_
  · intro record found
    exact ⟨recalls.records _ _ found, recalls, rfl⟩
  · intro _ isParameter
    rw [recalls.parameters] at isParameter
    cases isParameter
  · intro _ _
    refine Concludes.lookupVariable_of ?_ ?_ ?_
    · intro fault missing
      rw [located] at missing
      cases missing
    · intro other binding found bound
      rw [located] at found
      cases found
      rw [visible isVariable] at bound
      have isRecord : IsRecordOf program.rules node.text
          ((bindings program.globalScope steps).find? node.text)
          (Record.leaf node.text .unassigned (some binding)) := by
        rw [bound]
        exact Or.inl rfl
      exact ⟨isRecord, recalls.keepRecord isRecord, rfl⟩
    · intro other journal found unbound
      rw [located] at found
      cases found
      rw [visible isVariable] at unbound
      have isRecord : IsRecordOf program.rules node.text
          ((bindings program.globalScope steps).find? node.text)
          (Record.leaf node.text .unknown none) := by
        rw [unbound]
        exact Or.inl rfl
      have noted : Recalls program steps (memory.keepUnresolved node.text journal) :=
        recalls.of_eq rfl rfl rfl
      exact ⟨isRecord, noted.keepRecord isRecord, rfl⟩

section Trace

variable (line : StraightLine program.rules root steps) (performs : Performs program steps visitor)
  (recalls : Recalls program steps memory)

include line performs recalls

/-- An assignment is followed to the value of its right side, now or before. -/
theorem followDefinition_yields (split : steps = done ++ .assignment name node value :: rest)
    (unfollowed : Unfollowed done memory) (inactive : node.key ∉ memory.tracer.active) :
    Yields program steps memory (followDefinition visitor.definition name node)
      (finalValue program steps value) := by
  have member : Step.assignment name node value ∈ steps :=
    split ▸ List.mem_append_right _ (List.mem_cons_self ..)
  have stored : (execute program.rules program.globalScope steps).find? name =
      some (finalValue program steps value) := line.execute_find? split
  refine Concludes.followDefinition_of ?_ ?_ ?_
  · intro deps found
    have known := recalls.traced _ deps found name node value member rfl
    rw [stored] at known
    exact ⟨(Option.some.inj known).symm, recalls, rfl⟩
  · intro _ _ active
    exact absurd active inactive
  · intro _ _
    have activated : Recalls program steps (memory.activate node.key) := recalls.of_eq rfl rfl rfl
    have others : Unfollowed done (memory.activate node.key) := by
      intro other definition right earlier active
      rcases List.mem_cons.1 active with sameKey | isActive
      · -- an assignment that stands twice would assign to its variable twice
        have again : Step.assignment other definition right ∈ steps :=
          split ▸ List.mem_append_left _ earlier
        obtain ⟨rfl, _⟩ := line.assignment_unique again member sameKey
        have once := line.once
        rw [split, List.filterMap_append, List.nodup_append] at once
        exact once.2.2 other (List.mem_filterMap.2 ⟨_, earlier, rfl⟩) other
          (List.mem_cons_self ..) rfl
      · exact unfollowed other definition right earlier isActive
    refine Concludes.mono (performs.definition done name node value rest _ split activated others)
      ?_ fun _ _ tooDeep => tooDeep
    rintro deps after ⟨rfl, learned, active⟩
    refine ⟨rfl, ?_, ?_⟩
    · have released : Recalls program steps (after.release node.key) := learned.of_eq rfl rfl rfl
      refine released.keepTraced ?_
      intro other definition right listed sameKey
      obtain ⟨rfl, rfl⟩ := line.assignment_unique listed member sameKey
      exact stored
    · exact Memory.active_release active inactive

/-- The record of a variable is followed to its value. -/
theorem followRecord_yields (settled : Settled program steps done node)
    (isVariable : node.isVariable = true) (unfollowed : Unfollowed done memory)
    (notInput : program.rules.isInputVariable node.text = false) :
    Concludes program memory
      (if isActive memory.tracer (lookedRecord node.text
          ((bindings program.globalScope steps).find? node.text)).definition then
        lookupVariable node.text node
      else pure (lookedRecord node.text ((bindings program.globalScope steps).find? node.text)))
      (fun record final => Concludes program final (followRecord visitor.definition record)
        (fun result after => result = variableValue program.rules program.globalScope
            (execute program.rules program.globalScope steps) node.text ∧
          Recalls program steps after ∧ after.tracer.active = memory.tracer.active)
        (fun fault _ => fault = .tooDeep))
      (fun fault _ => fault = .tooDeep) := by
  have unassigned : forall binding : Option (Binding Node),
      binding = (superglobals program.globalScope).find? node.text ->
      (execute program.rules program.globalScope steps).find? node.text = none ->
      variableValue program.rules program.globalScope
        (execute program.rules program.globalScope steps) node.text =
          unknownLeaf node.text binding := by
    rintro binding rfl absent
    simp [variableValue, notInput, absent]
  rcases line.bound_or_unassigned program.globalScope node.text with
    ⟨_, definition, _, _, _, bound⟩ | ⟨shared, absent⟩
  · obtain ⟨value, member⟩ := settled.earlier node (.refl node) isVariable definition bound
    obtain ⟨rest, first⟩ := settled.first
    obtain ⟨before, after, split⟩ := List.append_of_mem member
    have whole : steps = before ++ .assignment node.text definition value :: (after ++ rest) := by
      rw [first, split, List.append_assoc, List.cons_append]
    have inactive := unfollowed node.text definition value member
    have idle : isActive memory.tracer (some (.referent definition)) = false := by
      simpa [isActive] using inactive
    have others : Unfollowed before memory := by
      intro other earlier right listed
      exact unfollowed other earlier right (split ▸ List.mem_append_left _ listed)
    have valueEq : variableValue program.rules program.globalScope
        (execute program.rules program.globalScope steps) node.text =
          finalValue program steps value := by
      simp [variableValue, notInput, line.execute_find? whole]
    rw [bound, valueEq]
    simp only [lookedRecord, Record.leaf, idle, Bool.false_eq_true, if_false, Concludes.pure_iff]
    refine Concludes.followRecord_of ?_ ?_
    · intro deps journal origin
      cases origin
    · intro found origin
      cases origin
      exact followDefinition_yields line performs recalls whole others inactive
  · rw [shared, unassigned _ rfl absent, find?_superglobals]
    split
    -- a shared variable and an unbound one are leaves alike
    all_goals
      simp only [lookedRecord, Record.leaf, isActive, Bool.false_eq_true, if_false,
        Concludes.pure_iff]
      refine Concludes.followRecord_of ?_ ?_
      · intro deps journal origin
        cases origin
        exact ⟨rfl, recalls.of_eq rfl rfl rfl, rfl⟩
      · intro found origin
        cases origin

/-- A variable is traced to its value. -/
theorem traceVariable_yields (settled : Settled program steps done node)
    (isVariable : node.isVariable = true) (unfollowed : Unfollowed done memory) :
    Yields program steps memory (traceVariable visitor.definition node)
      (finalValue program steps node) := by
  have form := Node.isVariable_iff.1 isVariable
  have valueEq : finalValue program steps node = variableValue program.rules program.globalScope
      (execute program.rules program.globalScope steps) node.text := evaluate_variable form
  rw [valueEq]
  refine Concludes.traceVariable_of ?_
  refine Concludes.mono (resolveVariable_recalls settled isVariable recalls) ?_
    fun _ _ tooDeep => tooDeep
  rintro record after ⟨isRecord, recalls, active⟩
  cases isInput : program.rules.isInputVariable node.text with
  | true =>
      rw [if_pos rfl, isRecord.tainted]
      refine ⟨?_, recalls.keepRecord (Or.inr ⟨isInput, rfl⟩), active⟩
      rcases line.bound_or_unassigned program.globalScope node.text with
        ⟨_, _, _, _, rfl, _⟩ | ⟨shared, _⟩
      · have trusted := line.trusted node.text (List.mem_filterMap.2
          ⟨_, List.mem_append_right _ (List.mem_cons_self ..), rfl⟩)
        rw [isInput] at trusted
        cases trusted
      · rw [shared, variableValue, if_pos isInput]
  | false =>
      rw [if_neg Bool.false_ne_true]
      obtain rfl := isRecord.looked isInput
      rw [← active]
      exact followRecord_yields line performs recalls settled isVariable
        (unfollowed.of_active_eq active) isInput

omit line in
/-- Expressions are traced to their values one after the other. -/
theorem mapM_yields {parts : List Node}
    (settled : forall part, part ∈ parts -> Settled program steps done part)
    (unfollowed : Unfollowed done memory) :
    Concludes program memory (parts.mapM visitor.trace)
      (fun results after => results = parts.map (finalValue program steps) ∧
        Recalls program steps after ∧ after.tracer.active = memory.tracer.active)
      (fun fault _ => fault = .tooDeep) := by
  refine Concludes.mapM (fun traced results after =>
    results = traced.map (finalValue program steps) ∧ Recalls program steps after ∧
      after.tracer.active = memory.tracer.active) ⟨rfl, recalls, rfl⟩ ?_
  rintro traced part rest split results after ⟨rfl, learned, active⟩
  have member : part ∈ parts := split ▸ List.mem_append_right _ (List.mem_cons_self ..)
  refine Concludes.mono (performs.trace done part after (settled part member) learned
    (unfollowed.of_active_eq active)) ?_ fun _ _ tooDeep => tooDeep
  rintro deps final ⟨rfl, learned, kept⟩
  exact ⟨by rw [List.map_append, List.map_singleton], learned, kept.trans active⟩

omit line in
/-- An expression is traced to its value if its parts are. -/
theorem traceNode_yields_of_parts {nodes : List Node} (grounded : Grounded nodes program)
    (notVariable : node.form ≠ .variableName) (undeclared : calledFunction? program node = none)
    (annotated : node.form = .call ->
      ∃ scope, program.registry.scopeOf program.globalScope node = .ok scope)
    (parts : forall part, part ∈ valueParts program.rules node -> Settled program steps done part)
    (unfollowed : Unfollowed done memory) :
    Yields program steps memory (traceNode visitor node) (finalValue program steps node) := by
  obtain ⟨noted, same⟩ := recalls.noted program.rules node
  refine traceNode_undeclared grounded notVariable undeclared annotated ?_
  refine Concludes.mono (mapM_yields performs noted parts (unfollowed.of_active_eq same)) ?_
    fun _ _ tooDeep => tooDeep
  rintro results after ⟨rfl, learned, active⟩
  exact ⟨(evaluate_eq_joinParts notVariable).symm, learned, active.trans same⟩

/-- An expression is traced to its value. -/
theorem traceNode_yields {nodes : List Node} (grounded : Grounded nodes program)
    (undeclared : calledFunction? program node = none)
    (settled : Settled program steps done node) (unfollowed : Unfollowed done memory) :
    Yields program steps memory (traceNode visitor node) (finalValue program steps node) := by
  by_cases form : node.form = .variableName
  · unfold traceNode
    rw [form]
    exact traceVariable_yields line performs recalls settled (Node.isVariable_iff.2 form) unfollowed
  · refine traceNode_yields_of_parts performs recalls grounded form undeclared ?_
      (fun part member => settled.valuePart member) unfollowed
    intro _
    obtain ⟨scope, located, _⟩ := settled.located node (.refl node)
    exact ⟨scope, located⟩

/-- An assignment is traced to the value of its right side. -/
theorem traceDefinition_yields (split : steps = done ++ .assignment name node value :: rest)
    (settled : Settled program steps done value) (unfollowed : Unfollowed done memory) :
    Yields program steps memory (traceDefinition visitor name node)
      (finalValue program steps value) := by
  have member : Step.assignment name node value ∈ steps :=
    split ▸ List.mem_append_right _ (List.mem_cons_self ..)
  obtain ⟨statement, left, _, _, assigns⟩ := line.assigns_of_mem member
  have defines : isDefinition node = true := by
    rw [isDefinition, assigns.construct]
  have takes : definingPart? node = some value := by
    rw [definingPart?, assigns.construct]
    exact assigns.valueFound
  have keeps : keptTarget? node = none := by
    simp [keptTarget?, assigns.construct, assigns.leftFound, keepsFormerValue, assigns.assignment,
      assigns.notContainer]
  refine (Concludes.traceDefinition_iff defines).2 ?_
  rw [takes, keeps]
  have only : forall part, part ∈ [value] -> Settled program steps done part := by
    intro part listed
    cases List.mem_singleton.1 listed
    exact settled
  refine Concludes.mono (mapM_yields performs recalls only unfollowed) ?_
    fun _ _ tooDeep => tooDeep
  rintro results after ⟨rfl, learned, active⟩
  exact ⟨Dependencies.merge_singleton _, learned, active⟩

end Trace

/-- At every depth, expressions and assignments are traced to their values. -/
theorem visitor_performs {nodes : List Node} (grounded : Grounded nodes program)
    (line : StraightLine program.rules root steps)
    (undeclared : forall node, calledFunction? program node = none)
    (settles : forall done step rest, steps = done ++ step :: rest ->
      Settled program steps done step.value) (depth : Nat) :
    Performs program steps (Flow.visitor depth) := by
  induction depth with
  | zero =>
      refine ⟨?_, ?_⟩
      · intro done node memory _ _ _
        exact rfl
      · intro done name node value rest memory _ _ _
        exact rfl
  | succ depth inductionHypothesis =>
      refine ⟨?_, ?_⟩
      · intro done node memory settled recalls unfollowed
        show Yields program steps memory (traceWithin (depth + 1) node) _
        rw [traceWithin]
        exact traceNode_yields line inductionHypothesis recalls grounded (undeclared node) settled
          unfollowed
      · intro done name node value rest memory split recalls unfollowed
        show Yields program steps memory (definitionWithin (depth + 1) name node) _
        rw [definitionWithin]
        exact traceDefinition_yields line inductionHypothesis recalls split
          (settles done _ rest split) unfollowed

/-- Without calls of declared functions only parts are traced, and parts are
lower. -/
theorem noDefaultCycle {nodes : List Node}
    (undeclared : forall node, calledFunction? program node = none) :
    NoDefaultCycle program nodes := by
  have lower : forall first second : Node, Relation.TransGen (FlowStep program nodes) first second ->
      second.tree.height < first.tree.height := by
    intro first second path
    have step : forall outer inner, FlowStep program nodes outer inner ->
        inner.tree.height < outer.tree.height := by
      intro outer inner flows
      cases flows with
      | part _ member => exact (inside_of_mem_valueParts member).lower
      | argument called _ _ | fallback called _ _ _ =>
          rw [undeclared] at called
          cases called
    induction path with
    | single flows => exact step _ _ flows
    | tail _ flows inductionHypothesis => exact Nat.lt_trans (step _ _ flows) inductionHypothesis
  intro node _ cycle
  exact Nat.lt_irrefl _ (lower node node cycle)

section Annotated

variable {ends : List ScopeId} {annotator : Annotation.Annotator}
  (annotated : [root].mapM Annotation.annotateProgram Annotation.Annotator.start =
    .ok ends annotator)
  (line : StraightLine rules root steps)

include annotated line

/-- No call of a straight-line program calls a declared function. -/
theorem undeclared_of_straightLine (node : Node) :
    calledFunction? (Program.ofAnnotated annotator rules [root]) node = none := by
  have grounded := Grounded.of_annotated annotated rules
  refine Option.eq_none_iff_forall_ne_some.2 fun target called => ?_
  obtain ⟨_, callee, scope, _, located, resolved⟩ := of_calledFunction?_eq_some called
  have answer := grounded.sound.resolveFunction_answer (grounded.places node scope located)
    callee.text
  rw [resolved] at answer
  exact line.functions target answer.1 answer.2

/-- What a step evaluates is bound by the steps before it. -/
theorem settled_of_split {step : Step} (split : steps = done ++ step :: rest) :
    Settled (Program.ofAnnotated annotator rules [root]) steps done step.value := by
  have member : step ∈ steps := split ▸ List.mem_append_right _ (List.mem_cons_self ..)
  obtain ⟨inert, inside⟩ := line.value_of_mem member
  have sees : forall part : Node, part.Beneath step.value -> part.isVariable = true ->
      (bindings annotator.globalScope done).find? part.text =
        (bindings annotator.globalScope steps).find? part.text := by
    intro part beneath isVariable
    exact line.bindings_find?_of_read split
      (List.mem_map.2 ⟨part, List.mem_filter.2 ⟨beneath.mem_preorder, isVariable⟩, rfl⟩)
  refine ⟨⟨step :: rest, split⟩, inert, ?_, ?_, ?_⟩
  · intro inner below
    refine line.grammatical inner ?_
    rw [nodesOf_singleton]
    exact (Node.Inside.of_mem_preorder below inside).mem_preorder
  · intro part beneath
    have inStep := Annotation.annotated_inStep annotated
    have shown := inStep.scopeOf part
    rw [line.storeOf? split beneath] at shown
    obtain ⟨scope, located, shows⟩ := shown
    refine ⟨scope, located, fun isVariable => ?_⟩
    exact (shows.2 part.text).trans (sees part beneath isVariable)
  · intro part beneath isVariable definition bound
    have early : (bindings annotator.globalScope done).find? part.text =
        some (.referent definition) := (sees part beneath isVariable).trans bound
    by_cases assigned : part.text ∈ done.filterMap Step.target?
    · obtain ⟨before, node, value, after, doneEq⟩ := exists_split_of_mem assigned
      have whole : steps = before ++ .assignment part.text node value :: (after ++ step :: rest) := by
        rw [split, doneEq, List.append_assoc, List.cons_append]
      have same : some (Binding.referent node) = some (.referent definition) :=
        (line.bindings_find? whole).symm.trans bound
      cases same
      exact ⟨value, doneEq ▸ List.mem_append_right _ (List.mem_cons_self ..)⟩
    · rw [bindings_find?_of_not_mem assigned, find?_superglobals] at early
      split at early <;> cases early

/-- The trace of an expression of a straight-line program ends with its value, or is
nested too deeply. -/
theorem trace_yields {step : Step} (member : step ∈ steps) (holds : step.Holds node)
    {memory : Memory} (recalls : Recalls (Program.ofAnnotated annotator rules [root]) steps memory)
    (idle : memory.tracer.active = []) :
    Yields (Program.ofAnnotated annotator rules [root]) steps memory (trace node)
      (finalValue (Program.ofAnnotated annotator rules [root]) steps node) := by
  have grounded := Grounded.of_annotated annotated rules
  have performs := visitor_performs grounded line (undeclared_of_straightLine annotated line)
    fun _ _ _ split => settled_of_split annotated line split
  obtain ⟨done, rest, split⟩ := List.append_of_mem member
  have settled := settled_of_split annotated line split
  have unfollowed : Unfollowed done memory := by
    intro name other value _
    rw [idle]
    exact List.not_mem_nil
  cases holds with
  | value beneath =>
      exact (performs _).trace done node memory (settled.beneath beneath) recalls unfollowed
  | @assignment name _ value =>
      obtain ⟨statement, left, _, _, assigns⟩ := line.assigns_of_mem member
      show Yields _ steps memory (traceWithin (depthBound [root]) node) _
      cases depthBound [root] with
      | zero => exact rfl
      | succ depth =>
          have form : node.form = .assignment := by
            rw [Node.form, assigns.assignment]
            rfl
          rw [traceWithin]
          refine traceNode_yields_of_parts (performs depth) recalls grounded ?_
            (undeclared_of_straightLine annotated line node) ?_ ?_ unfollowed
          · simp [form]
          · simp [form]
          · intro part listed
            have only : valueParts rules node = [value] := by
              simp [valueParts, form, augmentedPart?, assigns.assignment, assigns.valueFound]
            have same : part ∈ valueParts rules node := listed
            rw [only] at same
            cases List.mem_singleton.1 same
            exact settled

end Annotated

/-- The trace of any expression of a straight-line program is the value that the
expression has in the store that the program ends with: the same leaves in the
same order, with the same records. It does not depend on what was traced
before. -/
theorem traceInPlace_eq_evaluate {ends : List ScopeId} {annotator : Annotation.Annotator}
    (annotated : [root].mapM Annotation.annotateProgram Annotation.Annotator.start =
      .ok ends annotator)
    (line : StraightLine rules root steps)
    (reached : Reached (Program.ofAnnotated annotator rules [root]) (nodesOf [root]) memory)
    {step : Step} (member : step ∈ steps) (holds : step.Holds node) :
    ∃ after, traceInPlace node (Program.ofAnnotated annotator rules [root]) memory =
      .ok (evaluate rules annotator.globalScope (execute rules annotator.globalScope steps) node)
        after := by
  have grounded := Grounded.of_annotated annotated rules
  have started := (reached.coherent grounded).1.fresh [] true
  have undeclared := undeclared_of_straightLine annotated line
  have listed : node ∈ nodesOf [root] := line.mem_nodesOf_of_holds member holds
  have safe := trace_safe grounded rfl listed started fun _ => noDefaultCycle undeclared
  have recalls : Recalls (Program.ofAnnotated annotator rules [root]) steps
      (memory.withTracer (Tracer.fresh [] true)) := by
    refine ⟨rfl, ?_, ?_⟩
    · intro name record found
      cases found
    · intro key deps found
      cases found
  have yields := trace_yields annotated line member holds recalls rfl
  have concludes : Concludes (Program.ofAnnotated annotator rules [root]) memory
      (traceInPlace node)
      (fun deps _ => deps =
        evaluate rules annotator.globalScope (execute rules annotator.globalScope steps) node)
      (fun _ _ => False) := by
    unfold traceInPlace
    rw [Concludes.bind_iff, Concludes.withTracer_iff]
    refine Concludes.mono (Concludes.both safe yields) ?_ ?_
    · rintro deps after ⟨_, rfl, _⟩
      exact rfl
    · rintro fault after ⟨⟨unannotated, _⟩, rfl⟩
      obtain ⟨other, _, missing⟩ := grounded.unannotated unannotated
      cases missing
  cases outcome : traceInPlace node (Program.ofAnnotated annotator rules [root]) memory with
  | ok deps after => exact ⟨after, by rw [concludes.of_ok outcome]⟩
  | error fault after => exact (concludes.of_error outcome).elim

/-- Rules with one input and one sanitizer. -/
def escapingRules : RuleSet :=
  { sources :=
      Table.empty.insert (.text "$_GET") ⟨.text "$_GET", .text "$_GET", variableCategory, .null⟩
    sinks := ∅
    sanitizers := Table.empty.insert "e" ⟨"e", .null, .null, .null⟩
    reverses := ∅ }

/-- The expression `e($a) . $a` in `escapingFile`. -/
def escapingExpression : Tree :=
  .node "binary_expression" true 28 38 "" [
    .node "function_call_expression" true 28 33 "left" [
      .node "name" true 28 29 "function" [],
      .node "arguments" true 29 33 "arguments" [
        .node "argument" true 30 32 "" [.node "variable_name" true 30 32 "" []]]],
    .node "variable_name" true 36 38 "right" []]

/-- The assignment in `escapingFile`. -/
def escapingAssignment : Tree :=
  .node "assignment_expression" true 6 21 "" [
    .node "variable_name" true 6 8 "left" [],
    .node "binary_expression" true 11 21 "right" [
      .node "variable_name" true 11 16 "left" [], .node "variable_name" true 19 21 "right" []]]

/-- The file `<?php $a = $_GET . $b; echo e($a) . $a;`. -/
def escapingFile : Node :=
  ⟨⟨"escaping.php", "<?php $a = $_GET . $b; echo e($a) . $a;".toUTF8⟩,
    .node "program" true 0 39 "" [
      .node "expression_statement" true 6 22 "" [escapingAssignment],
      .node "echo_statement" true 23 39 "" [escapingExpression]]⟩

/-- The steps of `escapingFile`. -/
def escapingSteps : List Step := escapingFile.namedChildren.filterMap Step.ofStatement?

/-- The file is a straight line of assignments. -/
theorem escapingFile_straightLine : StraightLine escapingRules escapingFile escapingSteps where
  program := rfl
  statements := rfl
  once := by decide +kernel
  trusted := by decide +kernel
  fresh := by decide +kernel
  ordered := by decide +kernel
  functions := by decide +kernel
  distinct := by
    unfold KeysDistinct
    decide +kernel
  grammatical := by
    unfold Grammatical
    decide +kernel

/-- The value of the expression that `escapingFile` prints: an input that was
escaped on one of two flows, and a variable that is not known. -/
theorem traceInPlace_eq_evaluate_escaping :
    let node := escapingFile.withTree escapingExpression
    StraightLine escapingRules escapingFile escapingSteps ∧
    ∃ ends annotator after, [escapingFile].mapM Annotation.annotateProgram
        Annotation.Annotator.start = .ok ends annotator ∧
      traceInPlace node (Program.ofAnnotated annotator escapingRules [escapingFile]) Memory.start =
        .ok (evaluate escapingRules 0 (execute escapingRules 0 escapingSteps) node) after ∧
      (evaluate escapingRules 0 (execute escapingRules 0 escapingSteps) node).entries.map
        (fun entry => (entry.1, entry.2.level, entry.2.sanitizers.toList, entry.2.common.toList)) =
          [("$_GET", .tainted, ["e"], []), ("$b", .unknown, ["e"], [])] := by
  intro node
  refine ⟨escapingFile_straightLine, ?_⟩
  have ran : Outcome.passes (fun _ annotator =>
      Outcome.passes (fun deps _ => decide (deps.entries.map
        (fun entry => (entry.1, entry.2.level, entry.2.sanitizers.toList, entry.2.common.toList)) =
          [("$_GET", .tainted, ["e"], []), ("$b", .unknown, ["e"], [])]))
        (traceInPlace node (Program.ofAnnotated annotator escapingRules [escapingFile])
          Memory.start))
      ([escapingFile].mapM Annotation.annotateProgram Annotation.Annotator.start) = true := by
    decide +kernel
  obtain ⟨ends, annotator, outcome, traces⟩ := Outcome.exists_of_passes ran
  have holds : (Step.inert (escapingFile.withTree
      (.node "echo_statement" true 23 39 "" [escapingExpression]))).Holds node :=
    .value (.of_mem_namedChildren (List.mem_cons_self ..))
  obtain ⟨after, traced⟩ := traceInPlace_eq_evaluate outcome escapingFile_straightLine .start
    (List.mem_cons_of_mem _ (List.mem_cons_self ..)) holds
  have owner := Annotation.globalScope_of_annotated outcome
  rw [owner] at traced
  refine ⟨ends, annotator, after, outcome, traced, ?_⟩
  rw [traced] at traces
  exact of_decide_eq_true traces

end PhpTaint.Flow.Forward
