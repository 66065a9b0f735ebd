import PhpTaint.Flow.Call

/-!
# Flow through expressions

Every form of expression has a rule that says which of its parts flow into its
value. The rules are written against a `Visitor` for parts and definitions, and
`traceWithin` ties the knot with the bound on the nesting of flows. A flow that is
nested more deeply is a fault, not an answer.
-/

namespace PhpTaint.Flow

open Scopes Syntax Rules

/-- How to trace parts of an expression and definitions of variables. -/
structure Visitor where
  /-- The dependencies of an expression. -/
  trace : Node -> Tracing Deps
  /-- The dependencies of a variable with the given definition. -/
  definition : String -> Node -> Tracing Deps

/-- Trace a part, if it is there. -/
def traceOptional (trace : Node -> Tracing Deps) (part : Option Node) : Tracing Deps :=
  match part with
  | some node => trace node
  | none => pure ∅

/-- Trace several parts that all flow into the value. -/
def traceAll (trace : Node -> Tracing Deps) (parts : List Node) : Tracing Deps := do
  let dependencies ← parts.mapM trace
  return Dependencies.merge dependencies

/-- Whether an assignment keeps the former value as a part of the new one. -/
def keepsFormerValue (assignment left : Node) : Bool :=
  assignment.kind = "augmented_assignment_expression" || isContainerKind left.kind

/-- The value that an array element contributes. -/
def elementValue? (element : Node) : Option Node :=
  if element.kind = "array_element_initializer" then element.namedChildren.getLast? else none

/-- Whether a conversion keeps the text of its operand. -/
def keepsText (conversion : Node) : Bool :=
  ["string", "array", "object", "binary"].contains (Text.lower (Text.trim conversion.text))

/-- Trace the definition of a variable: what was assigned, iterated or given as
initial value, and the former value where it is kept. -/
def traceDefinition (visitor : Visitor) (name : String) (node : Node) : Tracing Deps := do
  match node.construct with
  | .assignment =>
      let deps ← traceOptional visitor.trace (node.child? "right")
      match node.child? "left" with
      | some left =>
          if keepsFormerValue node left then
            let former ← priorValue visitor.definition name left
            return Dependencies.mergeTwo former deps
          else return deps
      | none => return deps
  | .iteration => traceOptional visitor.trace node.namedChildren.head?
  | .staticVariable => traceOptional visitor.trace (node.child? "value")
  | _ =>
      giveUp (node.kind ++ " binding") node
      return unknownLeaf name (some (.referent node))

/-- Trace a choice: the chosen value, or the tested one where it is left out, and
the alternative. -/
def traceConditional (trace : Node -> Tracing Deps) (node : Node) : Tracing Deps := do
  let chosen := match node.child? "body" with
    | some body => some body
    | none => node.child? "condition"
  let first ← traceOptional trace chosen
  let second ← traceOptional trace (node.child? "alternative")
  return Dependencies.mergeTwo first second

/-- Trace a conversion. -/
def traceCast (trace : Node -> Tracing Deps) (node : Node) : Tracing Deps :=
  match node.child? "type" with
  | some conversion =>
      if keepsText conversion then traceOptional trace (node.child? "value") else pure ∅
  | none => pure ∅

/-- Trace an assignment that is used as a value. -/
def traceAssignment (trace : Node -> Tracing Deps) (node : Node) : Tracing Deps := do
  let deps ← traceOptional trace (node.child? "right")
  match node.child? "left" with
  | some left =>
      if node.kind = "augmented_assignment_expression" then
        let former ← trace left
        return Dependencies.mergeTwo former deps
      else return deps
  | none => return deps

/-- Trace an expression by the rule of its form. -/
def traceNode (visitor : Visitor) (node : Node) : Tracing Deps := do
  match node.form with
  | .literal => return ∅
  | .variableName => traceVariable visitor.definition node
  | .dynamicVariable =>
      giveUp "dynamic variable name" node
      return unknownLeaf node.text none
  | .operands => traceAll visitor.trace node.namedChildren
  | .unary => if node.hasToken "!" then return ∅ else traceAll visitor.trace node.namedChildren
  | .array => traceAll visitor.trace (node.namedChildren.filterMap elementValue?)
  | .container => traceOptional visitor.trace node.containerPart?
  | .staticProperty =>
      giveUp "static property" node
      return ∅
  | .call => traceCall visitor.trace node
  | .methodCall =>
      giveUp "method call" node
      return ∅
  | .conditional => traceConditional visitor.trace node
  | .cast => traceCast visitor.trace node
  | .interpolated =>
      traceAll visitor.trace (node.namedChildren.filter fun child => !isTextPartKind child.kind)
  | .assignment => traceAssignment visitor.trace node
  | .argument => traceOptional visitor.trace node.argumentValue
  | .other =>
      giveUp node.kind node
      return ∅

mutual

/-- Trace an expression whose flows have at most the given nesting. -/
def traceWithin : Nat -> Node -> Tracing Deps
  | 0, _ => throw .tooDeep
  | depth + 1, node => traceNode ⟨traceWithin depth, definitionWithin depth⟩ node

/-- Trace a definition whose flows have at most the given nesting. -/
def definitionWithin : Nat -> String -> Node -> Tracing Deps
  | 0, _, _ => throw .tooDeep
  | depth + 1, name, node => traceDefinition ⟨traceWithin depth, definitionWithin depth⟩ name node

end

/-- The visitor for flows of at most the given nesting. -/
def visitor (depth : Nat) : Visitor := ⟨traceWithin depth, definitionWithin depth⟩

/-- Perform a step with the visitor that the bound of the program admits. -/
def withVisitor {α : Type} (step : Visitor -> Tracing α) : Tracing α := do
  let program ← read
  step (visitor program.depth)

/-- The dependencies of an expression, seen by the running tracer. -/
def trace (node : Node) : Tracing Deps := withVisitor fun visitor => visitor.trace node

/-- The dependencies of a variable with the given definition. -/
def definitionDependencies (name : String) (node : Node) : Tracing Deps :=
  withVisitor fun visitor => visitor.definition name node

/-- The dependencies behind the binding of a record. -/
def recordDependencies (record : LeafRecord) : Tracing Deps :=
  withVisitor fun visitor => followRecord visitor.definition record

/-- The dependencies of what a variable held before a part of it was written. -/
def formerDependencies (name : String) (left : Node) : Tracing Deps :=
  withVisitor fun visitor => priorValue visitor.definition name left

/-- The summary of a declaration. -/
def summarizeFunction (declaration : Node) : Tracing Summary :=
  withVisitor fun visitor => summaryOf visitor.trace declaration

/-- The summary of the function that a name denotes at a scope. -/
def summarizeNamed (scope : ScopeId) (name : String) : Tracing Summary := do
  let program ← read
  let declaration ← orFault (program.registry.resolveFunction scope name)
  summarizeFunction declaration

/-- The dependencies of the value that a summarized function returns for some
arguments, seen by the running tracer. -/
def summaryCall (summary : Summary) (arguments : List Node) : Tracing Deps :=
  withVisitor fun visitor => callDependencies visitor.trace summary arguments

/-- The dependencies of an expression where it stands, with calls followed. -/
def traceInPlace (node : Node) : Tracing Deps := do
  let (deps, _) ← withTracer (Tracer.fresh [] true) (trace node)
  return deps

/-- Taint and sanitizers of the value that a summarized function returns for
some arguments. -/
def analyseCall (summary : Summary) (arguments : List Node) : Tracing (Level × NameSet) := do
  let (deps, _) ← withTracer (Tracer.fresh [] true) (summaryCall summary arguments)
  return deps.summarize

end PhpTaint.Flow
