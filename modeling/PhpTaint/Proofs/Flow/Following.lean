import PhpTaint.Proofs.Flow.Parts
import PhpTaint.Proofs.Scopes.Variables

/-!
# Variables and their definitions

A variable that is read is looked up, and its record is followed to a leaf or to
the construct that gives the variable its value. The rules here say in which
memory each of these steps ends; what following a definition does is left to the
one who applies them.
-/

namespace PhpTaint.Flow

open Scopes Syntax Rules

namespace Memory

/-- The memory with the record of a name that was read. -/
def keepRecord (memory : Memory) (name : String) (record : LeafRecord) : Memory :=
  { memory with tracer := { memory.tracer with records := memory.tracer.records.insert name record } }

/-- The memory with other notes. -/
def withJournal (memory : Memory) (journal : Journal) : Memory := { memory with journal := journal }

/-- The memory with a name that has no binding. -/
def keepUnresolved (memory : Memory) (name : String) (journal : Journal) : Memory :=
  { memory with
    tracer := { memory.tracer with unresolved := memory.tracer.unresolved ++ [name] }
    journal := journal }

end Memory

/-- Where a variable leads: to the construct that gives it its value, or no
further. -/
inductive Origin where
  /-- The construct that gives the variable its value. -/
  | definition (node : Node)
  /-- The dependencies on a leaf. -/
  | leaf (deps : Deps)

/-- Where a variable with a binding leads. A reference that leads to a reference
is not followed. -/
def bindingOrigin (parameters : List String) (name : String) : Binding Node -> Origin
  | .referent definition => .definition definition
  | .parameter parameter node index =>
      .leaf (if parameters.contains parameter then parameterLeaf name
        else unknownLeaf name (some (.parameter parameter node index)))
  | .superglobal shared owner => .leaf (unknownLeaf name (some (.superglobal shared owner)))
  | .globalReference _ _ _ | .unset => .leaf (unknownLeaf name none)

/-- Where the variable of a record leads. -/
def recordOrigin (registry : Registry Node) (parameters : List String) (record : LeafRecord) :
    Origin :=
  match record.definition with
  | none => .leaf (Dependencies.single record.name record)
  | some (.globalReference name node owner) =>
      match registry.followReference (.globalReference name node owner) with
      | .ok binding => bindingOrigin parameters record.name binding
      | .error _ => .leaf (unknownLeaf record.name none)
  | some binding => bindingOrigin parameters record.name binding

/-- Whether a binding stands for another one and is not followed any further. -/
def isReference : Binding Node -> Bool
  | .globalReference _ _ _ => true
  | _ => false

/-- The binding that is followed for a binding: a reference stands for the binding
it leads to, unless that is a reference as well. -/
def followedBinding (registry : Registry Node) (binding : Binding Node) : Binding Node :=
  match registry.followReference binding with
  | .ok resolved => if isReference resolved then binding else resolved
  | .error _ => binding

section Origins

variable {registry : Registry Node} {binding : Binding Node}

/-- A binding that is no reference is followed nowhere. -/
theorem followedBinding_of_not_isReference (final : isReference binding = false) :
    followedBinding registry binding = binding := by
  cases binding with
  | globalReference target node owner => cases final
  | referent | parameter | superglobal | unset => rfl

/-- What is followed stands for itself, or the reference that leads to it. -/
theorem followedBinding_cases (registry : Registry Node) (binding : Binding Node) :
    followedBinding registry binding = binding ∨
      registry.followReference binding = .ok (followedBinding registry binding) ∧
        isReference (followedBinding registry binding) = false := by
  unfold followedBinding
  cases followed : registry.followReference binding with
  | error fault => exact Or.inl rfl
  | ok resolved =>
      cases final : isReference resolved with
      | true => exact Or.inl (if_pos final)
      | false => exact Or.inr (by simp [final])

@[simp] theorem followedBinding_followedBinding :
    followedBinding registry (followedBinding registry binding) =
      followedBinding registry binding := by
  rcases followedBinding_cases registry binding with same | ⟨_, final⟩
  · rw [same, same]
  · exact followedBinding_of_not_isReference final

/-- A record is followed to where the binding leads that is followed for its own. -/
theorem recordOrigin_of_bound {record : LeafRecord} (parameters : List String)
    (bound : record.definition = some binding) :
    recordOrigin registry parameters record =
      bindingOrigin parameters record.name (followedBinding registry binding) := by
  unfold recordOrigin followedBinding
  rw [bound]
  cases binding with
  | globalReference target node owner =>
      simp only
      cases registry.followReference (.globalReference target node owner) with
      | error fault => rfl
      | ok resolved => cases resolved <;> rfl
  | referent | parameter | superglobal | unset => rfl

/-- A reference is followed to the binding that it resolves to. -/
theorem followedBinding_of_followReference {resolved : Binding Node}
    (followed : registry.followReference binding = .ok resolved)
    (final : isReference resolved = false) : followedBinding registry binding = resolved := by
  simp [followedBinding, followed, final]

/-- A variable that leads no further is a leaf under its own name. -/
theorem keys_of_bindingOrigin {parameters : List String} {name : String} {deps : Deps}
    (origin : bindingOrigin parameters name binding = .leaf deps) : deps.keys = [name] := by
  cases binding with
  | referent node => cases origin
  | parameter parameter node index =>
      cases origin
      split <;> rfl
  | superglobal | globalReference | unset =>
      cases origin
      rfl

/-- A definition comes from a binding to its node. -/
theorem eq_referent_of_bindingOrigin {parameters : List String} {name : String} {definition : Node}
    (origin : bindingOrigin parameters name binding = .definition definition) :
    binding = .referent definition := by
  cases binding with
  | referent node =>
      cases origin
      rfl
  | parameter | superglobal | globalReference | unset => cases origin

end Origins

/-- The construct that a definition takes its value from. -/
def definingPart? (node : Node) : Option Node :=
  match node.construct with
  | .assignment => node.child? "right"
  | .iteration => node.namedChildren.head?
  | .staticVariable => node.child? "value"
  | _ => none

/-- The target of a definition that keeps the former value as a part. -/
def keptTarget? (node : Node) : Option Node :=
  match node.construct with
  | .assignment => (node.child? "left").filter fun left => keepsFormerValue node left
  | _ => none

/-- The variable whose former value is kept when a part of it is written. -/
def formerVariable? (left : Node) : Option Node :=
  (if isContainerKind left.kind then left.containerBase else some left).filter Node.isVariable

/-- Whether a node gives variables their value. -/
def isDefinition (node : Node) : Bool :=
  match node.construct with
  | .assignment | .iteration | .staticVariable => true
  | _ => false

/-- The defining part of a node lies inside it. -/
theorem inside_of_definingPart? {node part : Node} (found : definingPart? node = some part) :
    part.Inside node := by
  unfold definingPart? at found
  split at found
  · exact .of_child? found
  · exact .of_mem_namedChildren (List.mem_of_mem_head? found)
  · exact .of_child? found
  · cases found

/-- The variable whose former value a definition keeps stands inside it. -/
theorem inside_of_formerVariable? {node left start : Node} (kept : keptTarget? node = some left)
    (chosen : formerVariable? left = some start) : start.Inside node := by
  have leftInside : left.Inside node := by
    unfold keptTarget? at kept
    split at kept
    · exact .of_child? (Option.filter_eq_some_iff.1 kept).1
    · cases kept
  have chosen := (Option.filter_eq_some_iff.1 chosen).1
  split at chosen
  · obtain ⟨tree, found, rfl⟩ := Option.map_eq_some_iff.1 chosen
    refine .of_mem_preorder ?_ leftInside
    exact List.mem_map.2 ⟨tree, Tree.mem_preorder_of_containerBase found, rfl⟩
  · cases chosen
    exact leftInside

/-- The variable behind a target is all that the target gives a value to. -/
theorem targets_of_formerVariable? {left start : Node} (chosen : formerVariable? left = some start) :
    left.targets = [start] := by
  obtain ⟨base, isVariable⟩ := Option.filter_eq_some_iff.1 chosen
  have variableKind : start.tree.kind = "variable_name" := of_decide_eq_true isVariable
  obtain ⟨source, tree⟩ := left
  cases tree with
  | node kind named first last label children =>
      unfold Node.targets
      split at base
      · rename_i isContainer
        have notVariable : kind ≠ "variable_name" := by
          rintro rfl
          cases isContainer
        obtain ⟨tree, found, rfl⟩ := Option.map_eq_some_iff.1 base
        have container : isContainerKind kind = true := isContainer
        have variableTree : tree.kind = "variable_name" := variableKind
        simp only [Tree.targets, notVariable, container, if_true, if_false]
        rw [found]
        simp [variableTree, Node.withTree]
      · cases base
        have isVariable : kind = "variable_name" := variableKind
        simp [Tree.targets, isVariable, Node.withTree]

/-- A definition that keeps a former value gives no other variable a value. -/
theorem name_eq_of_formerVariable? {node left start : Node} {name : String}
    (defines : name ∈ node.definedNames) (kept : keptTarget? node = some left)
    (chosen : formerVariable? left = some start) : name = start.text := by
  unfold keptTarget? at kept
  unfold Node.definedNames at defines
  split at kept
  · rename_i isAssignment
    have found := (Option.filter_eq_some_iff.1 kept).1
    rw [isAssignment] at defines
    simp only [found, targets_of_formerVariable? chosen] at defines
    exact List.mem_singleton.1 defines
  · cases kept

/-- A construct with names to define is a definition. -/
theorem isDefinition_of_mem_definedNames {node : Node} {name : String}
    (member : name ∈ node.definedNames) : isDefinition node = true := by
  unfold Node.definedNames at member
  unfold isDefinition
  cases construct : node.construct <;> rw [construct] at member <;> first | rfl | cases member

namespace Concludes

variable {program : Program} {memory : Memory} {visitor : Visitor} {node : Node} {name : String}
  {good : Deps -> Memory -> Prop} {bad : Fault -> Memory -> Prop}
  {traceDefinition : String -> Node -> Tracing Deps}

/-- A lookup at a node: the node has to be annotated, and a name without a
binding is noted. -/
theorem lookupVariable_of {good : LeafRecord -> Memory -> Prop}
    (unannotated : forall fault, program.registry.scopeOf program.globalScope node = .error fault ->
      bad fault memory)
    (bound : forall scope binding,
      program.registry.scopeOf program.globalScope node = .ok scope ->
      program.registry.visible scope name = some binding ->
        good (Record.leaf name .unassigned (some binding)) memory)
    (unbound : forall scope journal,
      program.registry.scopeOf program.globalScope node = .ok scope ->
      program.registry.visible scope name = none ->
        good (Record.leaf name .unknown none) (memory.keepUnresolved name journal)) :
    Concludes program memory (lookupVariable name node) good bad := by
  unfold lookupVariable
  rw [bind_iff, scopeOfNode_iff]
  cases located : program.registry.scopeOf program.globalScope node with
  | error fault => exact unannotated fault located
  | ok scope =>
      simp only [bind_iff, read_iff, Registry.resolveVariable_eq]
      cases visible : program.registry.visible scope name with
      | some binding => exact bound scope binding located visible
      | none =>
          simp only [bind_iff, remark_iff, updateTracer_iff, pure_iff]
          exact unbound scope _ located visible

/-- The record of a name that is read: the one that is kept, that of a parameter,
or that of the binding at the node. -/
theorem resolveVariable_of {good : LeafRecord -> Memory -> Prop}
    (kept : forall record, memory.tracer.records.find? name = some record -> good record memory)
    (parameter : memory.tracer.records.find? name = none ->
      memory.tracer.parameters.contains name = true ->
        good (Record.unassigned name) (memory.keepRecord name (Record.unassigned name)))
    (looked : memory.tracer.records.find? name = none ->
      memory.tracer.parameters.contains name = false ->
        Concludes program memory (lookupVariable name node)
          (fun record after => good record (after.keepRecord name record)) bad) :
    Concludes program memory (resolveVariable name node) good bad := by
  unfold resolveVariable
  rw [bind_iff, get_iff]
  cases found : memory.tracer.records.find? name with
  | some record => exact kept record found
  | none =>
      simp only
      cases isParameter : memory.tracer.parameters.contains name with
      | true => exact parameter found isParameter
      | false =>
          simp only [bind_iff, Bool.false_eq_true, if_false, updateTracer_iff, pure_iff]
          exact looked found isParameter

/-- A variable that is read is a leaf if it is an input; otherwise its record is
followed, or the binding at the node where the record leads back to a definition
that is being followed. -/
theorem traceVariable_of
    (resolved : Concludes program memory (resolveVariable node.text node)
      (fun record after =>
        if program.rules.isInputVariable node.text then
          good (Dependencies.single node.text { record with level := .tainted })
            (after.keepRecord node.text { record with level := .tainted })
        else
          Concludes program after
            (if isActive after.tracer record.definition then lookupVariable node.text node
              else pure record)
            (fun visible final => Concludes program final (followRecord traceDefinition visible)
              good bad) bad) bad) :
    Concludes program memory (traceVariable traceDefinition node) good bad := by
  unfold traceVariable
  rw [bind_iff]
  refine resolved.mono ?_ fun _ _ faulty => faulty
  intro record after holds
  rw [bind_iff, read_iff]
  split
  · rename_i isInput
    rw [if_pos isInput] at holds
    exact holds
  · rename_i notInput
    rw [if_neg notInput] at holds
    rw [bind_iff, get_iff]
    split
    · rename_i active
      rw [if_pos active] at holds
      exact (bind_iff _ _).2 holds
    · rename_i inactive
      rw [if_neg inactive] at holds
      exact (bind_iff _ _).2 holds

/-- A record is followed to a leaf or to a definition. -/
theorem followRecord_of {record : LeafRecord}
    (leaf : forall deps journal,
      recordOrigin program.registry memory.tracer.parameters record = .leaf deps ->
        good deps (memory.withJournal journal))
    (definition : forall definition,
      recordOrigin program.registry memory.tracer.parameters record = .definition definition ->
        Concludes program memory (followDefinition traceDefinition record.name definition) good
          bad) :
    Concludes program memory (followRecord traceDefinition record) good bad := by
  -- a binding that is no reference, also the one behind a reference
  have binding : forall binding,
      recordOrigin program.registry memory.tracer.parameters record =
        bindingOrigin memory.tracer.parameters record.name binding ->
      Concludes program memory (followBinding traceDefinition record.name binding) good bad := by
    intro binding origin
    cases binding with
    | referent node => exact definition node origin
    | parameter parameter node index =>
        unfold followBinding
        simp only [bind_iff, get_iff]
        simp only [bindingOrigin] at origin
        split
        · rename_i listed
          rw [if_pos listed] at origin
          exact leaf _ memory.journal origin
        · rename_i unlisted
          rw [if_neg unlisted] at origin
          exact leaf _ memory.journal origin
    | superglobal shared owner => exact leaf _ memory.journal origin
    | globalReference target node owner => exact leaf _ memory.journal origin
    | unset => exact leaf _ memory.journal origin
  unfold followRecord
  unfold recordOrigin at leaf definition binding
  cases found : record.definition with
  | none =>
      rw [found] at leaf
      exact leaf _ memory.journal rfl
  | some bound =>
      rw [found] at leaf definition binding
      cases bound with
      | globalReference target node owner =>
          simp only [bind_iff, read_iff] at leaf binding ⊢
          cases reference :
              program.registry.followReference (.globalReference target node owner) with
          | ok resolved =>
              rw [reference] at binding
              exact binding resolved rfl
          | error fault =>
              rw [reference] at leaf
              simp only [bind_iff, remark_iff, pure_iff]
              exact leaf _ _ rfl
      | referent node => exact binding _ rfl
      | parameter parameter node index => exact binding _ rfl
      | superglobal shared owner => exact binding _ rfl
      | unset => exact binding _ rfl

/-- A definition was followed before, is being followed, or is followed now. -/
theorem followDefinition_of {definition : Node}
    (followed : forall deps, memory.tracer.traced.find? definition.key = some deps ->
      good deps memory)
    (following : forall journal, memory.tracer.traced.find? definition.key = none ->
      definition.key ∈ memory.tracer.active -> good ∅ (memory.withJournal journal))
    (follow : memory.tracer.traced.find? definition.key = none ->
      definition.key ∉ memory.tracer.active ->
        Concludes program (memory.activate definition.key) (traceDefinition name definition)
          (fun deps after => good deps ((after.release definition.key).keepTraced definition.key deps))
          (fun fault after => bad fault (after.release definition.key))) :
    Concludes program memory (followDefinition traceDefinition name definition) good bad := by
  unfold followDefinition
  rw [bind_iff, get_iff]
  cases traced : memory.tracer.traced.find? definition.key with
  | some deps => exact followed deps traced
  | none =>
      simp only
      split
      · rename_i active
        simp only [bind_iff, remark_iff, pure_iff]
        exact following _ traced (List.contains_iff_mem.1 active)
      · rename_i inactive
        simp only [bind_iff, whileActive_iff, updateTracer_iff, pure_iff]
        exact follow traced fun member => inactive (List.contains_iff_mem.2 member)

/-- What a variable held before a part of it was written. -/
theorem priorValue_of {left : Node}
    (nothing : formerVariable? left = none -> good ∅ memory)
    (input : forall start, formerVariable? left = some start ->
      program.rules.isInputVariable name = true ->
        good (Dependencies.single name (Record.leaf name .tainted none)) memory)
    (parameter : forall start, formerVariable? left = some start ->
      program.rules.isInputVariable name = false ->
      memory.tracer.parameters.contains name = true -> good (parameterLeaf name) memory)
    (unannotated : forall start fault, formerVariable? left = some start ->
      program.rules.isInputVariable name = false ->
      program.registry.scopeOf program.globalScope start = .error fault -> bad fault memory)
    (unbound : forall start scope, formerVariable? left = some start ->
      program.rules.isInputVariable name = false ->
      program.registry.scopeOf program.globalScope start = .ok scope ->
      program.registry.visible scope name = none -> good ∅ memory)
    (bound : forall start scope binding, formerVariable? left = some start ->
      program.rules.isInputVariable name = false ->
      memory.tracer.parameters.contains name = false ->
      program.registry.scopeOf program.globalScope start = .ok scope ->
      program.registry.visible scope name = some binding ->
        Concludes program memory
          (followRecord traceDefinition (Record.leaf name .unassigned (some binding))) good bad) :
    Concludes program memory (priorValue traceDefinition name left) good bad := by
  unfold priorValue
  unfold formerVariable? at nothing input parameter unannotated unbound bound
  simp only
  generalize (if isContainerKind left.kind then left.containerBase else some left) = base
    at nothing input parameter unannotated unbound bound ⊢
  cases base with
  | none => exact nothing rfl
  | some start =>
      simp only
      cases isVariable : start.isVariable with
      | false =>
          simp only [Bool.not_false, if_true, pure_iff]
          exact nothing (by simp [isVariable])
      | true =>
          have chosen : (some start).filter Node.isVariable = some start := by simp [isVariable]
          simp only [Bool.not_true, Bool.false_eq_true, if_false, bind_iff, read_iff, get_iff]
          cases isInput : program.rules.isInputVariable name with
          | true => exact input start chosen isInput
          | false =>
              simp only [Bool.false_eq_true, if_false]
              cases isParameter : memory.tracer.parameters.contains name with
              | true => exact parameter start chosen isInput isParameter
              | false =>
                  simp only [Bool.false_eq_true, if_false, bind_iff, scopeOfNode_iff]
                  cases located : program.registry.scopeOf program.globalScope start with
                  | error fault => exact unannotated start fault chosen isInput located
                  | ok scope =>
                      simp only [Registry.resolveVariable_eq]
                      cases visible : program.registry.visible scope name with
                      | some binding =>
                          exact bound start scope binding chosen isInput isParameter located visible
                      | none => exact unbound start scope chosen isInput located visible

/-- A definition takes the value of its part, and of the former value where that
is kept. -/
theorem traceDefinition_iff (defines : isDefinition node = true) :
    Concludes program memory (Flow.traceDefinition visitor name node) good bad ↔
      Concludes program memory ((definingPart? node).toList.mapM visitor.trace)
        (fun results after =>
          match keptTarget? node with
          | some left =>
              Concludes program after (priorValue visitor.definition name left)
                (fun former final =>
                  good (Dependencies.mergeTwo former (Dependencies.merge results)) final) bad
          | none => good (Dependencies.merge results) after) bad := by
  unfold Flow.traceDefinition definingPart? keptTarget?
  unfold isDefinition at defines
  cases construct : node.construct with
  | assignment =>
      simp only [bind_iff]
      rw [traceOptional_iff]
      cases node.child? "left" with
      | none => exact Iff.rfl
      | some left =>
          cases keeps : keepsFormerValue node left with
          | true =>
              have kept : (some left).filter (fun left => keepsFormerValue node left) =
                  some left := by simp [keeps]
              simp only [kept, keeps, if_true, bind_iff, pure_iff]
          | false =>
              have dropped : (some left).filter (fun left => keepsFormerValue node left) =
                  none := by simp [keeps]
              simp only [dropped, keeps, Bool.false_eq_true, if_false, pure_iff]
  | iteration => exact traceOptional_iff _
  | staticVariable => exact traceOptional_iff _
  | program | namespaceDefinition | functionDefinition | methodDeclaration | closure
  | arrowFunction | classDeclaration | propertyDeclaration | constantDeclaration
  | globalDeclaration | unset | call | plain =>
      rw [construct] at defines
      cases defines

end Concludes

end PhpTaint.Flow
