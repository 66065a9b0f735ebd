import PhpTaint.Proofs.Flow.Conclusion
import PhpTaint.Proofs.Syntax.Kind
import PhpTaint.Proofs.Syntax.Occurrence
import PhpTaint.Proofs.Taint.Dependencies

/-!
# Expressions and their parts

Apart from variables and calls that are followed, tracing an expression is one
thing for every form: note what is not followed, trace the parts that flow into
the value, and join what they depend on. `valueParts` lists the parts in the
order in which they are traced, `joinParts` joins their dependencies. Likewise
`returnedOn` lists what is traced of a function: the values that it returns.
-/

namespace PhpTaint.Flow

open Scopes Syntax Rules

/-- What a call calls. -/
inductive Callee where
  /-- Something that is computed; the text stands for it. -/
  | dynamic (text : String)
  /-- A function that returns untrusted input. -/
  | input (name : String)
  /-- Any other function, by the node that names it. -/
  | named (node : Node)

/-- What a call calls. -/
def calleeOf (rules : RuleSet) (node : Node) : Callee :=
  match node.child? "function" with
  | none => .dynamic node.text
  | some callee =>
      if isFunctionNameKind callee.kind then
        if rules.isInputFunction (normalizeName callee.text) then
          .input (normalizeName callee.text)
        else .named callee
      else .dynamic callee.text

/-- The value that a choice takes: the chosen one, or the tested one where that is
left out. -/
def chosenPart? (node : Node) : Option Node :=
  match node.child? "body" with
  | some body => some body
  | none => node.child? "condition"

/-- The operand of a conversion that keeps text. -/
def convertedPart? (node : Node) : Option Node :=
  match node.child? "type" with
  | some conversion => if keepsText conversion then node.child? "value" else none
  | none => none

/-- The target of an assignment whose former value is a part of the new one. -/
def augmentedPart? (node : Node) : Option Node :=
  if node.kind = "augmented_assignment_expression" then node.child? "left" else none

/-- The parts of an expression that flow into its value, in the order in which
they are traced. The parts of a call are those of a call that is not followed. -/
def valueParts (rules : RuleSet) (node : Node) : List Node :=
  match node.form with
  | .operands => node.namedChildren
  | .unary => if node.hasToken "!" then [] else node.namedChildren
  | .array => node.namedChildren.filterMap elementValue?
  | .container => node.containerPart?.toList
  | .call =>
      match calleeOf rules node with
      | .named _ => node.arguments
      | _ => []
  | .conditional => (chosenPart? node).toList ++ (node.child? "alternative").toList
  | .cast => (convertedPart? node).toList
  | .interpolated => node.namedChildren.filter fun child => !isTextPartKind child.kind
  | .assignment => (node.child? "right").toList ++ (augmentedPart? node).toList
  | .argument => node.argumentValue.toList
  | _ => []

/-- How a part that flows into the value of an expression stands in it. -/
inductive ValuePart (node : Node) : Node -> Prop where
  /-- A child of an expression that reads its children. -/
  | child {part : Node} (reads : node.form ∈ [.operands, .unary, .interpolated, .argument])
      (member : part ∈ node.namedChildren) : ValuePart node part
  /-- The value of an element of an array. -/
  | element {element part : Node} (isArray : node.form = .array)
      (member : element ∈ node.namedChildren) (isElement : element.kind = "array_element_initializer")
      (value : part ∈ element.namedChildren) : ValuePart node part
  /-- The container of an element or of a property. -/
  | container {part : Node} (isContainer : node.form = .container)
      (found : node.containerPart? = some part) : ValuePart node part
  /-- An argument of a call. -/
  | argument {part : Node} (isCall : node.form = .call) (member : part ∈ node.arguments) :
      ValuePart node part
  /-- A labelled part of a choice or of a conversion. -/
  | labelled {label : String} {part : Node} (reads : node.form ∈ [.conditional, .cast])
      (listed : label ∈ ["body", "condition", "alternative", "value"])
      (found : node.child? label = some part) : ValuePart node part
  /-- A side of an assignment. -/
  | side {label : String} {part : Node} (assigns : node.form = .assignment)
      (listed : label ∈ ["right", "left"]) (found : node.child? label = some part) :
      ValuePart node part

/-- What is listed as a part of the value of a node is one. -/
theorem valuePart_of_mem {rules : RuleSet} {node part : Node}
    (member : part ∈ valueParts rules node) : ValuePart node part := by
  unfold valueParts at member
  cases form : node.form with
  | operands =>
      rw [form] at member
      exact .child (by simp [form]) member
  | unary =>
      rw [form] at member
      simp only at member
      split at member
      · cases member
      · exact .child (by simp [form]) member
  | array =>
      rw [form] at member
      obtain ⟨element, inside, value⟩ := List.mem_filterMap.1 member
      unfold elementValue? at value
      split at value
      · rename_i isElement
        exact .element form inside isElement (List.mem_of_getLast? value)
      · cases value
  | container =>
      rw [form] at member
      exact .container form (Option.mem_toList.1 member)
  | call =>
      rw [form] at member
      simp only at member
      split at member
      · exact .argument form member
      · cases member
  | conditional =>
      rw [form] at member
      have isChoice : node.form ∈ [.conditional, .cast] := by simp [form]
      rcases List.mem_append.1 member with chosen | alternative
      · unfold chosenPart? at chosen
        split at chosen
        · rename_i body found
          cases Option.mem_toList.1 chosen
          exact .labelled isChoice (by decide : "body" ∈ _) found
        · exact .labelled isChoice (by decide : "condition" ∈ _) (Option.mem_toList.1 chosen)
      · exact .labelled isChoice (by decide : "alternative" ∈ _) (Option.mem_toList.1 alternative)
  | cast =>
      rw [form] at member
      unfold convertedPart? at member
      simp only at member
      split at member
      · split at member
        · exact .labelled (by simp [form]) (by decide : "value" ∈ _) (Option.mem_toList.1 member)
        · cases member
      · cases member
  | interpolated =>
      rw [form] at member
      exact .child (by simp [form]) (List.mem_filter.1 member).1
  | assignment =>
      rw [form] at member
      rcases List.mem_append.1 member with right | left
      · exact .side form (by decide : "right" ∈ _) (Option.mem_toList.1 right)
      · unfold augmentedPart? at left
        split at left
        · exact .side form (by decide : "left" ∈ _) (Option.mem_toList.1 left)
        · cases left
  | argument =>
      rw [form] at member
      have isArgument : node.kind = "argument" := Form.eq_argument_iff.1 form
      have value : node.argumentValue = some part := Option.mem_toList.1 member
      unfold Node.argumentValue at value
      rw [if_pos isArgument] at value
      exact .child (by simp [form]) (List.mem_of_getLast? value)
  | literal | variableName | dynamicVariable | staticProperty | methodCall | other =>
      rw [form] at member
      cases member

/-- The parts of an expression stand inside it. -/
theorem inside_of_mem_valueParts {rules : RuleSet} {node part : Node}
    (member : part ∈ valueParts rules node) : part.Inside node := by
  cases valuePart_of_mem member with
  | child _ listed => exact .of_mem_namedChildren listed
  | element _ listed _ value =>
      exact (Node.Inside.of_mem_namedChildren value).trans (.of_mem_namedChildren listed)
  | container _ found => exact .of_mem_children (Node.mem_children_of_containerPart? found)
  | argument _ listed => exact .of_mem_arguments listed
  | labelled _ _ found | side _ _ found => exact .of_child? found

/-- The dependencies of an expression on those of its parts. A former value comes
before the one that was assigned. -/
def joinParts (rules : RuleSet) (node : Node) (results : List Deps) : Deps :=
  match node.form with
  | .dynamicVariable => unknownLeaf node.text none
  | .call =>
      match calleeOf rules node with
      | .dynamic text => unknownLeaf text none
      | .input name =>
          Dependencies.single (name ++ "()")
            (Record.leaf (name ++ "()") .tainted (some (.referent node)))
      | .named callee =>
          Dependencies.merge
            (results.map fun deps => applyFunction rules deps (normalizeName callee.text))
  | .assignment => Dependencies.merge results.reverse
  | _ => Dependencies.merge results

/-- A function acts on leaves and drops none. -/
theorem keys_applyFunction (rules : RuleSet) (deps : Deps) (function : String) :
    (applyFunction rules deps function).keys = deps.keys := by
  unfold applyFunction
  simp only
  split
  · exact Table.keys_mapValues ..
  · split
    · exact Table.keys_mapValues ..
    · rfl

/-- What is noted of an expression that is not followed. -/
def gapKind? (rules : RuleSet) (node : Node) : Option String :=
  match node.form with
  | .dynamicVariable => some "dynamic variable name"
  | .staticProperty => some "static property"
  | .methodCall => some "method call"
  | .other => some node.kind
  | .call =>
      match calleeOf rules node with
      | .dynamic _ => some "dynamic function name"
      | _ => none
  | _ => none

/-- The memory with a note on a construct that is not followed. -/
def Memory.giveUp (memory : Memory) (kind : String) (node : Node) : Memory :=
  let gap : Gap := ⟨kind, node.line⟩
  { memory with
    journal := ⟨.debug, .flow, gap.message ++ ", not traced"⟩ :: memory.journal
    tracer := { memory.tracer with gaps := memory.tracer.gaps ++ [gap] } }

/-- The memory in which the parts of an expression are traced. -/
def Memory.noted (memory : Memory) (rules : RuleSet) (node : Node) : Memory :=
  match gapKind? rules node with
  | some kind => memory.giveUp kind node
  | none => memory

namespace Concludes

variable {program : Program} {memory : Memory} {visitor : Visitor} {node : Node}
  {good : Deps -> Memory -> Prop} {bad : Fault -> Memory -> Prop} {trace : Node -> Tracing Deps}

@[simp] theorem giveUp_iff {good : Unit -> Memory -> Prop} (kind : String) :
    Concludes program memory (giveUp kind node) good bad ↔ good () (memory.giveUp kind node) :=
  Iff.rfl

@[simp] theorem mapM_nil_iff {α β : Type} {step : β -> Tracing α}
    {good : List α -> Memory -> Prop} :
    Concludes program memory (([] : List β).mapM step) good bad ↔ good [] memory := by
  rw [List.mapM_nil, pure_iff]

/-- Parts are traced one after the other and merged in that order. -/
theorem traceAll_iff (parts : List Node) :
    Concludes program memory (traceAll trace parts) good bad ↔
      Concludes program memory (parts.mapM trace)
        (fun results after => good (Dependencies.merge results) after) bad := by
  simp [traceAll]

/-- A part that may be missing counts as a list of at most one. -/
theorem traceOptional_iff (part : Option Node) :
    Concludes program memory (traceOptional trace part) good bad ↔
      Concludes program memory (part.toList.mapM trace)
        (fun results after => good (Dependencies.merge results) after) bad := by
  cases part with
  | none => simp [traceOptional]
  | some part => simp [traceOptional]

/-- A conditional expression traces the branch that is chosen and the other one. -/
theorem traceConditional_iff :
    Concludes program memory (traceConditional trace node) good bad ↔
      Concludes program memory
        (((chosenPart? node).toList ++ (node.child? "alternative").toList).mapM trace)
        (fun results after => good (Dependencies.merge results) after) bad := by
  unfold traceConditional
  change Concludes program memory (do
    let first ← traceOptional trace (chosenPart? node)
    let second ← traceOptional trace (node.child? "alternative")
    return Dependencies.mergeTwo first second) good bad ↔ _
  cases chosenPart? node with
  | none => cases node.child? "alternative" <;> simp [traceOptional]
  | some chosen =>
      cases node.child? "alternative" with
      | none => simp [traceOptional]
      | some alternative => simp [traceOptional, Dependencies.mergeTwo_eq]

/-- A cast traces its value if it keeps texts, and nothing otherwise. -/
theorem traceCast_iff :
    Concludes program memory (traceCast trace node) good bad ↔
      Concludes program memory ((convertedPart? node).toList.mapM trace)
        (fun results after => good (Dependencies.merge results) after) bad := by
  unfold traceCast convertedPart?
  cases node.child? "type" with
  | none => simp
  | some conversion =>
      simp only
      split
      · rw [traceOptional_iff]
      · simp

/-- An assignment traces its right side and, if the operator reads it, its left one. -/
theorem traceAssignment_iff :
    Concludes program memory (traceAssignment trace node) good bad ↔
      Concludes program memory
        (((node.child? "right").toList ++ (augmentedPart? node).toList).mapM trace)
        (fun results after => good (Dependencies.merge results.reverse) after) bad := by
  unfold traceAssignment augmentedPart?
  cases node.child? "right" with
  | none =>
      cases node.child? "left" with
      | none => simp [traceOptional]
      | some left =>
          by_cases augmented : node.kind = "augmented_assignment_expression"
          · simp [traceOptional, augmented]
          · simp [traceOptional, augmented]
  | some right =>
      cases node.child? "left" with
      | none => simp [traceOptional]
      | some left =>
          by_cases augmented : node.kind = "augmented_assignment_expression"
          · simp [traceOptional, augmented, Dependencies.mergeTwo_eq]
          · simp [traceOptional, augmented]

/-- The arguments of a known function are traced and passed through it one by one. -/
theorem traceThrough_iff (name : String) (items : List Node)
    {good : List Deps -> Memory -> Prop} :
    Concludes program memory (items.mapM (traceThrough trace name)) good bad ↔
      Concludes program memory (items.mapM trace)
        (fun results after =>
          good (results.map fun deps => applyFunction program.rules deps name) after) bad := by
  induction items generalizing memory good with
  | nil => simp
  | cons item rest inductionHypothesis => simp [traceThrough, inductionHypothesis]

/-- What is to be shown of following a call, by what becomes of the function: its
scope or its name is not known, its summary is being built, or it is entered. -/
theorem followCall_of {function : String} {good : Option Deps -> Memory -> Prop}
    (unlocated : forall fault, program.registry.scopeOf program.globalScope node = .error fault ->
      bad fault memory)
    (unresolved : forall scope fault,
      program.registry.scopeOf program.globalScope node = .ok scope ->
      program.registry.resolveFunction scope function = .error fault ->
        if fault.isUnbound then good none memory else bad fault memory)
    (recursive : forall scope declaration,
      program.registry.scopeOf program.globalScope node = .ok scope ->
      program.registry.resolveFunction scope function = .ok declaration ->
      declaration.key ∈ memory.inProgress -> forall text,
        good (some (unknownLeaf (normalizeName function ++ "()") (some (.referent node))))
          (memory.note text))
    (entered : forall scope declaration,
      program.registry.scopeOf program.globalScope node = .ok scope ->
      program.registry.resolveFunction scope function = .ok declaration ->
      declaration.key ∉ memory.inProgress ->
        Concludes program memory
          (summaryOf trace declaration >>= fun summary =>
            callDependencies trace summary node.arguments)
          (fun deps after => good (some deps) after) bad) :
    Concludes program memory (followCall trace node function) good bad := by
  unfold followCall
  rw [bind_iff, scopeOfNode_iff]
  cases located : program.registry.scopeOf program.globalScope node with
  | error fault => exact unlocated fault located
  | ok scope =>
      simp only
      rw [bind_iff, read_iff]
      cases resolved : program.registry.resolveFunction scope function with
      | error fault =>
          have ends := unresolved scope fault located resolved
          simp only
          split
          · rename_i unbound
            rwa [if_pos unbound] at ends
          · rename_i bound
            rwa [if_neg bound] at ends
      | ok declaration =>
          simp only
          rw [bind_iff, get_iff]
          split
          · rename_i listed
            exact recursive scope declaration located resolved (List.contains_iff_mem.1 listed) _
          · rename_i absent
            have idle : declaration.key ∉ memory.inProgress :=
              fun listed => absent (List.contains_iff_mem.2 listed)
            simpa only [bind_iff, pure_iff] using
              entered scope declaration located resolved idle

/-- A call of a computed function is not followed and yields a leaf of unknown origin. -/
theorem traceCall_dynamic_iff {text : String}
    (dynamic : calleeOf program.rules node = .dynamic text) :
    Concludes program memory (traceCall trace node) good bad ↔
      good (unknownLeaf text none) (memory.giveUp "dynamic function name" node) := by
  unfold calleeOf at dynamic
  unfold traceCall
  cases found : node.child? "function" with
  | none =>
      rw [found] at dynamic
      cases dynamic
      simp
  | some target =>
      rw [found] at dynamic
      simp only at dynamic ⊢
      split at dynamic
      · split at dynamic <;> cases dynamic
      · rename_i computed
        obtain rfl := Callee.dynamic.inj dynamic
        simp [computed]

/-- A call of a source of input yields a tainted leaf of its name. -/
theorem traceCall_input_iff {name : String}
    (input : calleeOf program.rules node = .input name) :
    Concludes program memory (traceCall trace node) good bad ↔
      good (Dependencies.single (name ++ "()")
        (Record.leaf (name ++ "()") .tainted (some (.referent node)))) memory := by
  unfold calleeOf at input
  unfold traceCall
  cases found : node.child? "function" with
  | none =>
      rw [found] at input
      cases input
  | some target =>
      rw [found] at input
      simp only at input ⊢
      split at input
      · rename_i isName
        split at input
        · rename_i isInput
          obtain rfl := Callee.input.inj input
          simp [isName, isInput]
        · cases input
      · cases input

/-- A call by name, once it is known whether it is followed. -/
theorem traceCall_iff {callee : Node} (named : calleeOf program.rules node = .named callee) :
    Concludes program memory (traceCall trace node) good bad ↔
      Concludes program memory
        (if memory.tracer.followsCalls then followCall trace node callee.text else pure none)
        (fun followed after =>
          match followed with
          | some deps => good deps after
          | none =>
              Concludes program after (node.arguments.mapM trace)
                (fun results final =>
                  good (Dependencies.merge (results.map fun deps =>
                    applyFunction program.rules deps (normalizeName callee.text))) final) bad)
        bad := by
  unfold calleeOf at named
  unfold traceCall
  cases found : node.child? "function" with
  | none =>
      rw [found] at named
      cases named
  | some target =>
      rw [found] at named
      simp only at named ⊢
      split at named
      · rename_i isName
        split at named
        · cases named
        · rename_i notInput
          cases named
          simp only [isName, notInput, bind_iff, read_iff, get_iff, Bool.not_true, Bool.false_eq_true,
            if_false]
          cases memory.tracer.followsCalls with
          | false => simp [traceThrough_iff]
          | true =>
              simp only [if_true, bind_iff]
              refine iff_of_good ?_
              intro followed after
              cases followed with
              | some deps => exact Iff.rfl
              | none => simp [traceThrough_iff]
      · cases named

/-- Tracing an expression, variables and followed calls apart, is tracing its
parts and joining what they depend on. -/
theorem traceNode_iff (notVariable : node.form ≠ .variableName)
    (unfollowed : node.form = .call -> memory.tracer.followsCalls = false) :
    Concludes program memory (traceNode visitor node) good bad ↔
      Concludes program (memory.noted program.rules node)
        ((valueParts program.rules node).mapM visitor.trace)
        (fun results after => good (joinParts program.rules node results) after) bad := by
  unfold traceNode valueParts joinParts Memory.noted gapKind?
  cases form : node.form with
  | variableName => exact absurd form notVariable
  | literal => simp
  | dynamicVariable => simp
  | operands => exact traceAll_iff _
  | unary =>
      by_cases negation : node.hasToken "!" = true
      · simp [negation]
      · simp only [negation]
        exact traceAll_iff _
  | array => exact traceAll_iff _
  | container => exact traceOptional_iff _
  | staticProperty => simp
  | methodCall => simp
  | call =>
      simp only
      cases callee : calleeOf program.rules node with
      | named name =>
          rw [traceCall_iff callee, unfollowed form]
          simp
      | dynamic text => exact traceCall_dynamic_iff callee
      | input name => exact traceCall_input_iff callee
  | conditional => exact traceConditional_iff
  | cast => exact traceCast_iff
  | interpolated => exact traceAll_iff _
  | assignment => exact traceAssignment_iff
  | argument => exact traceOptional_iff _
  | other => simp

end Concludes

/-- The value that a return statement returns. -/
def returnedValue? (statement : Node) : Option Node :=
  statement.namedChildren.find? fun child => child.kind ≠ "comment"

/-- The values that return statements return, with their lines. -/
def valuesOn (statements : List Node) : List (Nat × Node) :=
  statements.filterMap fun statement => (returnedValue? statement).map fun value =>
    (statement.line, value)

/-- The values that a function may return, with their lines. -/
def returnedOn (declaration : Node) : List (Nat × Node) :=
  match declaration.child? "body" with
  | none => []
  | some body =>
      if declaration.construct = .arrowFunction then [(body.line, body)] else valuesOn body.returns

/-- The values that a function may return. -/
def returnedValues (declaration : Node) : List Node := (returnedOn declaration).map Prod.snd

/-- What a function returns stands inside its declaration. -/
theorem inside_of_mem_returnedOn {declaration value : Node} {line : Nat}
    (listed : (line, value) ∈ returnedOn declaration) : value.Inside declaration := by
  unfold returnedOn at listed
  cases found : declaration.child? "body" with
  | none =>
      rw [found] at listed
      cases listed
  | some body =>
      have inside := Node.Inside.of_child? found
      rw [found] at listed
      simp only at listed
      split at listed
      · cases List.mem_singleton.1 listed
        exact inside
      · obtain ⟨statement, returned, chosen⟩ := List.mem_filterMap.1 listed
        obtain ⟨_, picked, same⟩ := Option.map_eq_some_iff.1 chosen
        cases same
        exact (Node.Inside.of_mem_namedChildren (List.mem_of_find?_eq_some picked)).trans
          (.of_mem_returns returned inside)

/-- Tracing return statements is tracing the returned values one after the other:
`kept` relates those that have been traced to what they depend on, line by line. A
statement that returns nothing has a line all the same. -/
theorem Concludes.traceReturns_of {program : Program} {memory : Memory} {declaration body : Node}
    {trace : Node -> Tracing Deps} {bad : Fault -> Memory -> Prop}
    (found : declaration.child? "body" = some body)
    (kept : List (Nat × Node) -> Table Nat Deps -> Memory -> Prop) (start : kept [] ∅ memory)
    (traced : forall done line value returns after, (line, value) ∈ returnedOn declaration ->
      kept done returns after ->
        Concludes program after (trace value)
          (fun deps final => kept (done ++ [(line, value)]) (Summary.addReturn returns line deps)
            final) bad)
    (bare : forall done line returns after, kept done returns after ->
      kept done (Summary.addReturn returns line ∅) after) :
    Concludes program memory (traceReturns trace declaration body)
      (fun returns after => kept (returnedOn declaration) returns after) bad := by
  unfold traceReturns
  simp only [returnedOn, found] at traced ⊢
  split
  · rename_i isArrow
    simp only [isArrow, if_true] at traced
    rw [Concludes.bind_iff]
    exact traced [] body.line body ∅ memory (List.mem_singleton.2 rfl) start
  · rename_i notArrow
    simp only [notArrow, if_false] at traced
    refine Concludes.foldlM (fun done returns after => kept (valuesOn done) returns after) start ?_
    rintro done statement rest split returns after holds
    unfold traceReturn
    cases chosen : statement.namedChildren.find? fun child => child.kind ≠ "comment" with
    | none =>
        have nothing : returnedValue? statement = none := chosen
        have unchanged : valuesOn (done ++ [statement]) = valuesOn done := by
          simp [valuesOn, nothing]
        rw [unchanged]
        exact bare _ statement.line returns after holds
    | some value =>
        have returned : returnedValue? statement = some value := chosen
        have extended : valuesOn (done ++ [statement]) =
            valuesOn done ++ [(statement.line, value)] := by
          simp [valuesOn, returned]
        have listed : (statement.line, value) ∈ valuesOn body.returns := by
          rw [split]
          exact List.mem_filterMap.2 ⟨statement, List.mem_append_right _ (List.mem_cons_self ..),
            by rw [returned]; rfl⟩
        rw [extended]
        exact (Concludes.bind_iff ..).2 (traced _ statement.line value returns after listed holds)

end PhpTaint.Flow
