import PhpTaint.Proofs.Flow.Forward
import PhpTaint.Proofs.Flow.Preservation
import PhpTaint.Proofs.Taint.Gathering

/-!
# Flows through elementary expressions

A flow arrives at an expression from a variable in it or from a leaf of its own,
and passes the functions on its way (`Arrives`). The value of an expression
gathers exactly these flows, whatever the store holds for the variables.

An expression of a function body is elementary if it reads parameters and inputs
only and calls no declared function. Tracing it for a summary gathers the flows
that arrive when every parameter holds just itself.
-/

namespace PhpTaint.Flow

open Scopes Syntax Rules Forward
open Dependencies (Flows Gathers)

/-- What a function does to a flow, as a step. -/
def functionStep (rules : RuleSet) (function : String) : LeafRecord :=
  let name := normalizeName function
  if rules.isSanitizer name then Record.idle.withSanitizer name
  else
    match rules.undoneBy? name with
    | some sanitizer => Record.idle.withoutSanitizer sanitizer
    | none => Record.idle

/-- What an expression does to the flows from its parts. -/
def nodeStep (rules : RuleSet) (node : Node) : LeafRecord :=
  match node.form with
  | .call =>
      match calleeOf rules node with
      | .named callee => functionStep rules (normalizeName callee.text)
      | _ => Record.idle
  | _ => Record.idle

/-- The leaf that an expression is by itself. -/
def ownLeaf? (rules : RuleSet) (node : Node) : Option (String × LeafRecord) :=
  match node.form with
  | .dynamicVariable => some (node.text, Record.leaf node.text .unknown none)
  | .call =>
      match calleeOf rules node with
      | .dynamic text => some (text, Record.leaf text .unknown none)
      | .input name =>
          some (name ++ "()", Record.leaf (name ++ "()") .tainted (some (.referent node)))
      | .named _ => none
  | _ => none

/-- The flows that arrive at an expression, by leaf. -/
inductive Arrives (rules : RuleSet) (owner : ScopeId) (store : Store) :
    Node -> String -> LeafRecord -> Prop where
  /-- A flow from the value of a variable. -/
  | read {node : Node} {name : String} {flow : LeafRecord} (isVariable : node.form = .variableName)
      (found : (variableValue rules owner store node.text).find? name = some flow) :
      Arrives rules owner store node name flow
  /-- The flow from the leaf that the expression is. -/
  | own {node : Node} {name : String} {flow : LeafRecord}
      (leaf : ownLeaf? rules node = some (name, flow)) : Arrives rules owner store node name flow
  /-- A flow from a part. -/
  | part {node part : Node} {name : String} {flow : LeafRecord}
      (member : part ∈ valueParts rules node) (arrives : Arrives rules owner store part name flow) :
      Arrives rules owner store node name (flow.passedThrough (nodeStep rules node))

variable {rules : RuleSet} {owner : ScopeId} {store : Store} {node : Node} {exact : Prop}

/-- A function is one step on every leaf. -/
theorem applyFunction_eq_mapValues (deps : Deps) (function : String) :
    applyFunction rules deps function =
      deps.mapValues fun record => record.passedThrough (functionStep rules function) := by
  simp only [applyFunction, functionStep]
  generalize normalizeName function = name
  cases rules.isSanitizer name with
  | true => exact congrArg deps.mapValues (funext fun record => record.withSanitizer_eq name)
  | false =>
      cases rules.undoneBy? name with
      | some sanitizer =>
          exact congrArg deps.mapValues (funext fun record => record.withoutSanitizer_eq sanitizer)
      | none => exact Table.ext (by simp [Table.mapValues, Record.idle])

/-- The flows from the parts of an expression, after what it does to them, and from
its own leaf. -/
def joinedFlows (rules : RuleSet) (node : Node) (flowsOf : Node -> Flows (Binding Node)) :
    Flows (Binding Node) := fun name flow =>
  ownLeaf? rules node = some (name, flow) ∨
    ∃ part, part ∈ valueParts rules node ∧
      ∃ before, flowsOf part name before ∧ flow = before.passedThrough (nodeStep rules node)

section Joining

variable {flowsOf : Node -> Flows (Binding Node)} {results : List Deps}

/-- A construct with a leaf of its own and no parts gathers that leaf. -/
theorem joinParts_gathers_leaf {name : String} {record : LeafRecord}
    (joined : joinParts rules node results = Dependencies.single name record)
    (own : ownLeaf? rules node = some (name, record)) (noParts : valueParts rules node = []) :
    Gathers exact (joinParts rules node results) (joinedFlows rules node flowsOf) := by
  rw [joined]
  refine (Gathers.single Record.Totals.self).congr fun other flow => ?_
  simp [joinedFlows, own, noParts, eq_comm]

/-- A construct without a leaf of its own gathers the flows of its parts. -/
theorem joinParts_gathers_merged {parts : List Node} {values : List Deps}
    (joined : joinParts rules node results = Dependencies.merge values)
    (each : List.Forall₂ (fun part deps => Gathers exact deps (flowsOf part)) parts values)
    (same : forall part, part ∈ parts ↔ part ∈ valueParts rules node)
    (noLeaf : ownLeaf? rules node = none) (noStep : nodeStep rules node = Record.idle) :
    Gathers exact (joinParts rules node results) (joinedFlows rules node flowsOf) := by
  rw [joined]
  refine (Gathers.merge each).congr fun name flow => ?_
  simp [joinedFlows, noLeaf, noStep, Record.idle, same]

/-- An expression gathers the flows from its parts and from its own leaf. -/
theorem joinParts_gathers
    (each : List.Forall₂ (fun part deps => Gathers exact deps (flowsOf part))
      (valueParts rules node) results) :
    Gathers exact (joinParts rules node results) (joinedFlows rules node flowsOf) := by
  cases form : node.form with
  | call =>
      cases callee : calleeOf rules node with
      | dynamic text =>
          exact joinParts_gathers_leaf (by simp [joinParts, form, callee]; rfl)
            (by simp [ownLeaf?, form, callee]) (by simp [valueParts, form, callee])
      | input name =>
          exact joinParts_gathers_leaf (by simp [joinParts, form, callee]; rfl)
            (by simp [ownLeaf?, form, callee]) (by simp [valueParts, form, callee])
      | named target =>
          have joined : joinParts rules node results = Dependencies.merge (results.map fun deps =>
              deps.mapValues fun record => record.passedThrough (nodeStep rules node)) := by
            simp [joinParts, nodeStep, form, callee, applyFunction_eq_mapValues]
          have stepped : List.Forall₂ (fun part deps => Gathers exact deps fun name flow =>
              ∃ before, flowsOf part name before ∧ flow = before.passedThrough (nodeStep rules node))
              (valueParts rules node) (results.map fun deps =>
                deps.mapValues fun record => record.passedThrough (nodeStep rules node)) :=
            List.forall₂_map_right_iff.2 (each.imp fun _ _ gathers => gathers.passedThrough _)
          rw [joined]
          refine (Gathers.merge stepped).congr fun name flow => ?_
          simp [joinedFlows, ownLeaf?, form, callee]
  | dynamicVariable =>
      exact joinParts_gathers_leaf (by simp [joinParts, form]; rfl) (by simp [ownLeaf?, form])
        (by simp [valueParts, form])
  | assignment =>
      exact joinParts_gathers_merged (by simp [joinParts, form])
        (List.forall₂_reverse_iff.2 each) (fun part => List.mem_reverse) (by simp [ownLeaf?, form])
        (by simp [nodeStep, form])
  | literal | variableName | operands | unary | array | container | staticProperty | methodCall
  | conditional | cast | interpolated | argument | other =>
      exact joinParts_gathers_merged (by simp [joinParts, form]) each (fun part => Iff.rfl)
        (by simp [ownLeaf?, form]) (by simp [nodeStep, form])

end Joining

/-- What arrives at a variable is what its value holds. -/
theorem arrives_variable_iff (isVariable : node.form = .variableName) {name : String}
    {flow : LeafRecord} :
    Arrives rules owner store node name flow ↔
      (variableValue rules owner store node.text).find? name = some flow := by
  constructor
  · intro arrives
    cases arrives with
    | read _ found => exact found
    | own leaf => simp [ownLeaf?, isVariable] at leaf
    | part member _ => simp [valueParts, isVariable] at member
  · exact .read isVariable

/-- What arrives at any other construct is joined from its parts. -/
theorem arrives_compound_iff (notVariable : node.form ≠ .variableName) {name : String}
    {flow : LeafRecord} :
    Arrives rules owner store node name flow ↔
      joinedFlows rules node (Arrives rules owner store) name flow := by
  constructor
  · intro arrives
    cases arrives with
    | read isVariable _ => exact absurd isVariable notVariable
    | own leaf => exact Or.inl leaf
    | part member arrives => exact Or.inr ⟨_, member, _, arrives, rfl⟩
  · rintro (leaf | ⟨part, member, before, arrives, rfl⟩)
    · exact .own leaf
    · exact .part member arrives

/-- The value of an expression gathers the flows that arrive at it. -/
theorem evaluate_gathers (node : Node) :
    Gathers True (evaluate rules owner store node) (Arrives rules owner store node) := by
  induction height : node.tree.height using Nat.strongRecOn generalizing node with
  | ind measure inductionHypothesis =>
      by_cases isVariable : node.form = .variableName
      · rw [evaluate_variable isVariable]
        exact Gathers.self.congr fun name flow => (arrives_variable_iff isVariable).symm
      · rw [evaluate_eq_joinParts isVariable]
        have each : List.Forall₂ (fun part deps => Gathers True deps
            (Arrives rules owner store part)) (valueParts rules node)
            ((valueParts rules node).map (evaluate rules owner store)) := by
          refine List.forall₂_map_right_iff.2 (List.forall₂_same.2 fun part member => ?_)
          exact inductionHypothesis _ (height ▸ (inside_of_mem_valueParts member).lower) part rfl
        exact (joinParts_gathers each).congr fun name flow => (arrives_compound_iff isVariable).symm

/-- An expression of a function with the given parameters that reads parameters and
inputs only, calls no declared function, and is no leaf with the name of a
parameter. -/
inductive Elementary (program : Program) (parameters : List String) : Node -> Prop where
  /-- A parameter. -/
  | parameter {node : Node} (isVariable : node.form = .variableName)
      (listed : node.text ∈ parameters) : Elementary program parameters node
  /-- An input variable that was annotated. -/
  | input {node : Node} (isVariable : node.form = .variableName)
      (isInput : program.rules.isInputVariable node.text = true)
      (located : ∃ scope, program.registry.scopeOf program.globalScope node = .ok scope) :
      Elementary program parameters node
  /-- Any other expression, by its parts; a call was annotated. -/
  | compound {node : Node} (notVariable : node.form ≠ .variableName)
      (undeclared : calledFunction? program node = none)
      (located : node.form = .call ->
        ∃ scope, program.registry.scopeOf program.globalScope node = .ok scope)
      (apart : forall leaf, ownLeaf? program.rules node = some leaf -> leaf.1 ∉ parameters)
      (parts : forall part, part ∈ valueParts program.rules node ->
        Elementary program parameters part) : Elementary program parameters node

/-- Whether a node by itself may stand in an elementary expression. -/
def isElementaryNode (program : Program) (parameters : List String) (node : Node) : Bool :=
  let located := (program.registry.scopeOf program.globalScope node).isOk
  if node.form = .variableName then
    parameters.contains node.text || program.rules.isInputVariable node.text && located
  else
    (calledFunction? program node).isNone && (node.form != .call || located) &&
      (ownLeaf? program.rules node).all fun leaf => !parameters.contains leaf.1

/-- An expression is elementary if every node in it is. -/
theorem Elementary.of_all {program : Program} {parameters : List String} {node : Node}
    (checked : node.preorder.all (isElementaryNode program parameters) = true) :
    Elementary program parameters node := by
  induction height : node.tree.height using Nat.strongRecOn generalizing node with
  | ind measure inductionHypothesis =>
      have located : forall {node : Node}, (program.registry.scopeOf program.globalScope
          node).isOk = true -> ∃ scope,
            program.registry.scopeOf program.globalScope node = .ok scope := by
        intro node isOk
        cases found : program.registry.scopeOf program.globalScope node with
        | ok scope => exact ⟨scope, rfl⟩
        | error fault =>
            rw [found] at isOk
            cases isOk
      have every := List.all_eq_true.1 checked
      have self := every node node.self_mem_preorder
      unfold isElementaryNode at self
      by_cases isVariable : node.form = .variableName
      · simp only [isVariable, if_true, Bool.or_eq_true, List.contains_iff_mem,
          Bool.and_eq_true] at self
        rcases self with listed | ⟨isInput, isOk⟩
        · exact .parameter isVariable listed
        · exact .input isVariable isInput (located isOk)
      · simp only [isVariable, if_false, Bool.and_eq_true, Option.isNone_iff_eq_none,
          Bool.or_eq_true, bne_iff_ne, ne_eq] at self
        obtain ⟨⟨undeclared, annotated⟩, apart⟩ := self
        refine .compound isVariable undeclared ?_ ?_ ?_
        · intro isCall
          exact located (annotated.resolve_left fun other => other isCall)
        · intro leaf own
          rw [own] at apart
          simpa using apart
        · intro part member
          have inside := inside_of_mem_valueParts member
          refine inductionHypothesis _ (height ▸ inside.lower) (List.all_eq_true.2 ?_) rfl
          intro inner below
          exact every inner (Node.Inside.of_mem_preorder below inside).mem_preorder

/-- Every parameter holds itself. -/
def parameterStore (parameters : List String) : Store :=
  Table.empty.insertMany (parameters.map fun name => (name, parameterLeaf name))

/-- In a store of parameters each of them is a leaf of its own. -/
theorem parameterStore_find? {parameters : List String} (name : String) :
    (parameterStore parameters).find? name =
      if name ∈ parameters then some (parameterLeaf name) else none :=
  Table.find?_insertMany_map ..

/-- A tracer of a function with the given parameters: what it has recorded of a
name is plain, and a parameter is recorded as such. -/
structure Tracks (parameters : List String) (memory : Memory) : Prop where
  follows : memory.tracer.parameters = parameters
  plain : forall name record, memory.tracer.records.find? name = some record ->
    ∃ level definition, record = Record.leaf name level definition
  parameter : forall name record, memory.tracer.records.find? name = some record ->
    name ∈ parameters -> record = Record.unassigned name

variable {program : Program} {memory : Memory} {parameters : List String} {nodes : List Node}

namespace Tracks

/-- What is tracked is a matter of the parameters and the records. -/
theorem of_eq {after : Memory} (tracks : Tracks parameters memory)
    (same : after.tracer.parameters = memory.tracer.parameters)
    (records : after.tracer.records = memory.tracer.records) : Tracks parameters after := by
  refine ⟨same.trans tracks.follows, ?_, ?_⟩
  · rw [records]
    exact tracks.plain
  · rw [records]
    exact tracks.parameter

/-- A note of the unannotated is not tracked. -/
theorem noted (tracks : Tracks parameters memory) (rules : RuleSet) (node : Node) :
    Tracks parameters (memory.noted rules node) := by
  unfold Memory.noted
  split
  · exact tracks.of_eq rfl rfl
  · exact tracks

/-- A plain record may be kept, and under a parameter only that of the parameter. -/
theorem keepRecord (tracks : Tracks parameters memory) {name : String} {record : LeafRecord}
    (plain : ∃ level definition, record = Record.leaf name level definition)
    (parameter : name ∈ parameters -> record = Record.unassigned name) :
    Tracks parameters (memory.keepRecord name record) := by
  have found : forall other kept, (memory.keepRecord name record).tracer.records.find? other =
      some kept -> other = name ∧ kept = record ∨
        memory.tracer.records.find? other = some kept := by
    intro other kept found
    change (memory.tracer.records.insert name record).find? other = some kept at found
    rw [Table.find?_insert] at found
    split at found
    · rename_i same
      exact Or.inl ⟨same, (Option.some.inj found).symm⟩
    · exact Or.inr found
  refine ⟨tracks.follows, ?_, ?_⟩
  · intro other kept listed
    rcases found other kept listed with ⟨rfl, rfl⟩ | earlier
    · exact plain
    · exact tracks.plain other kept earlier
  · intro other kept listed
    rcases found other kept listed with ⟨rfl, rfl⟩ | earlier
    · exact parameter
    · exact tracks.parameter other kept earlier

/-- A fresh tracer tracks its parameters. -/
theorem fresh (memory : Memory) (parameters : List String) (followsCalls : Bool) :
    Tracks parameters (memory.withTracer (Tracer.fresh parameters followsCalls)) := by
  refine ⟨rfl, ?_, ?_⟩
  · intro name record found
    cases found
  · intro name record found
    cases found

end Tracks

/-- A step gives dependencies that gather the given flows. -/
def GivesFlows (parameters : List String) (program : Program) (memory : Memory)
    (step : Tracing Deps) (flows : Flows (Binding Node)) : Prop :=
  Concludes program memory step
    (fun deps after => Gathers True deps flows ∧ Tracks parameters after) fun _ _ => False

/-- A parameter is traced to itself. -/
theorem traceVariable_parameter {traceDefinition : String -> Node -> Tracing Deps}
    (tracks : Tracks parameters memory) (listed : node.text ∈ parameters)
    (trusted : program.rules.isInputVariable node.text = false) :
    Concludes program memory (traceVariable traceDefinition node)
      (fun deps after => deps = parameterLeaf node.text ∧ Tracks parameters after)
      fun _ _ => False := by
  refine Concludes.traceVariable_of ?_
  have leaf : forall after, Tracks parameters after ->
      if program.rules.isInputVariable node.text then
        Dependencies.single node.text
            { (Record.unassigned node.text : LeafRecord) with level := .tainted } =
          parameterLeaf node.text ∧
        Tracks parameters (after.keepRecord node.text
          { (Record.unassigned node.text : LeafRecord) with level := .tainted })
      else
        Concludes program after
          (if isActive after.tracer (Record.unassigned node.text : LeafRecord).definition then
            lookupVariable node.text node else pure (Record.unassigned node.text))
          (fun visible final => Concludes program final (followRecord traceDefinition visible)
            (fun deps after => deps = parameterLeaf node.text ∧ Tracks parameters after)
            fun _ _ => False) fun _ _ => False := by
    intro after tracks
    rw [trusted]
    exact ⟨rfl, tracks⟩
  refine Concludes.resolveVariable_of ?_ ?_ ?_
  · intro record found
    rw [tracks.parameter node.text record found listed]
    exact leaf memory tracks
  · intro _ _
    exact leaf _ (tracks.keepRecord ⟨_, _, rfl⟩ fun _ => rfl)
  · intro _ unlisted
    rw [tracks.follows] at unlisted
    simp [listed] at unlisted

/-- An input variable is traced to itself. -/
theorem traceVariable_input {traceDefinition : String -> Node -> Tracing Deps}
    (tracks : Tracks parameters memory) (unlisted : node.text ∉ parameters)
    (isInput : program.rules.isInputVariable node.text = true)
    (located : ∃ scope, program.registry.scopeOf program.globalScope node = .ok scope) :
    Concludes program memory (traceVariable traceDefinition node)
      (fun deps after => (∃ definition, deps = Dependencies.single node.text
        (Record.leaf node.text .tainted definition)) ∧ Tracks parameters after)
      fun _ _ => False := by
  refine Concludes.traceVariable_of ?_
  simp only [isInput, if_true]
  have leaf : forall record after, Tracks parameters after ->
      (∃ level definition, record = Record.leaf node.text level definition) ->
      (∃ definition, Dependencies.single node.text { record with level := .tainted } =
        Dependencies.single node.text (Record.leaf node.text .tainted definition)) ∧
      Tracks parameters (after.keepRecord node.text { record with level := .tainted }) := by
    rintro _ after tracks ⟨level, definition, rfl⟩
    exact ⟨⟨definition, rfl⟩, tracks.keepRecord ⟨_, _, rfl⟩ fun listed => absurd listed unlisted⟩
  have kept : forall record after, Tracks parameters after ->
      (∃ level definition, record = Record.leaf node.text level definition) ->
      Tracks parameters (after.keepRecord node.text record) :=
    fun record after tracks plain => tracks.keepRecord plain fun listed => absurd listed unlisted
  refine Concludes.resolveVariable_of ?_ ?_ ?_
  · intro record found
    exact leaf record memory tracks (tracks.plain node.text record found)
  · intro _ _
    exact leaf _ _ (kept _ _ tracks ⟨_, _, rfl⟩) ⟨_, _, rfl⟩
  · intro _ _
    refine Concludes.lookupVariable_of ?_ ?_ ?_
    · intro fault missing
      obtain ⟨scope, located⟩ := located
      rw [located] at missing
      cases missing
    · intro scope binding _ _
      exact leaf _ _ (kept _ _ tracks ⟨_, _, rfl⟩) ⟨_, _, rfl⟩
    · intro scope journal _ _
      exact leaf _ _ (kept _ _ (tracks.of_eq rfl rfl) ⟨_, _, rfl⟩) ⟨_, _, rfl⟩

/-- An elementary expression is traced to the flows that arrive at it when every
parameter holds itself. -/
theorem traceWithin_givesFlows (grounded : Grounded nodes program) (owner : ScopeId)
    (trusted : forall name, name ∈ parameters -> program.rules.isInputVariable name = false)
    {depth : Nat} (elementary : Elementary program parameters node)
    (tracks : Tracks parameters memory) (deep : node.tree.height <= depth) :
    GivesFlows parameters program memory (traceWithin depth node)
      (Arrives program.rules owner (parameterStore parameters) node) := by
  induction depth generalizing node memory with
  | zero =>
      have := node.tree.height_pos
      omega
  | succ depth inductionHypothesis =>
      rw [traceWithin]
      cases elementary with
      | parameter isVariable listed =>
          unfold traceNode
          rw [isVariable]
          refine Concludes.mono (traceVariable_parameter tracks listed (trusted _ listed)) ?_
            fun _ _ never => never
          rintro _ after ⟨rfl, tracks⟩
          refine ⟨Gathers.self.congr fun name flow => ?_, tracks⟩
          rw [arrives_variable_iff isVariable, variableValue]
          simp only [trusted _ listed, parameterStore_find?, if_pos listed]
          exact Iff.rfl
      | input isVariable isInput located =>
          have unlisted : node.text ∉ parameters := by
            intro listed
            rw [trusted _ listed] at isInput
            cases isInput
          unfold traceNode
          rw [isVariable]
          refine Concludes.mono (traceVariable_input tracks unlisted isInput located) ?_
            fun _ _ never => never
          rintro _ after ⟨⟨definition, rfl⟩, tracks⟩
          have alike : (Record.leaf node.text .tainted definition : LeafRecord).Totals True
              (· = Record.leaf node.text .tainted ((superglobals owner).find? node.text)) :=
            .of_alike rfl rfl rfl rfl
          refine ⟨(Gathers.single alike).congr fun name flow => ?_, tracks⟩
          rw [arrives_variable_iff isVariable, variableValue]
          simp only [isInput, if_true]
          unfold Dependencies.single
          rw [Table.find?_insert]
          by_cases same : name = node.text
          · simp only [same, true_and, if_true, Option.some.injEq]
            exact eq_comm
          · simp [same]
      | compound notVariable undeclared located apart parts =>
          refine traceNode_undeclared grounded notVariable undeclared located ?_
          have results : Concludes program (memory.noted program.rules node)
              ((valueParts program.rules node).mapM (traceWithin depth))
              (fun results after => List.Forall₂ (fun part deps => Gathers True deps
                  (Arrives program.rules owner (parameterStore parameters) part))
                  (valueParts program.rules node) results ∧ Tracks parameters after)
              fun _ _ => False := by
            refine Concludes.mapM (fun done results after => List.Forall₂ (fun part deps =>
              Gathers True deps (Arrives program.rules owner (parameterStore parameters) part))
              done results ∧ Tracks parameters after) ⟨.nil, tracks.noted _ _⟩ ?_
            rintro done part rest split results after ⟨gathered, tracks⟩
            have member : part ∈ valueParts program.rules node :=
              split ▸ List.mem_append_right _ (List.mem_cons_self ..)
            have lower := (inside_of_mem_valueParts member).lower
            refine Concludes.mono (inductionHypothesis (parts part member) tracks (by omega)) ?_
              fun _ _ never => never
            rintro deps final ⟨gathers, tracks⟩
            exact ⟨List.rel_append gathered (.cons gathers .nil), tracks⟩
          refine Concludes.mono results ?_ fun _ _ never => never
          rintro results after ⟨each, tracks⟩
          exact ⟨(joinParts_gathers each).congr fun name flow =>
            (arrives_compound_iff notVariable).symm, tracks⟩

end PhpTaint.Flow
