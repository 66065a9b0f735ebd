import PhpTaint.Flow.Variable

/-!
# Flow through calls

The value of a call of a declared function is what its return statements
return, with the argument in the place of each parameter. The returns are
summarized once for each declaration; a call then binds its arguments to the
parameters and substitutes them in the summary, passing each argument through
the sanitizer steps that the summary records on the parameter.

A call back into a function whose summary is being built has no known value.
-/

namespace PhpTaint.Flow

open Scopes Syntax Rules

/-- The dependencies after a function: a sanitizer and a function that undoes one
act on every leaf. -/
def applyFunction (rules : RuleSet) (deps : Deps) (function : String) : Deps :=
  let name := normalizeName function
  if rules.isSanitizer name then deps.mapValues fun record => record.withSanitizer name
  else
    match rules.undoneBy? name with
    | some sanitizer => deps.mapValues fun record => record.withoutSanitizer sanitizer
    | none => deps

/-- Arguments bound to parameters, and the next positional parameter. -/
structure Bound where
  /-- The dependencies bound to each parameter name. -/
  arguments : Table String Deps
  /-- The position of the next positional argument. -/
  position : Nat

/-- Bind dependencies to a parameter name; those bound to one name are merged. -/
def bindName (arguments : Table String Deps) (name : String) (deps : Deps) : Table String Deps :=
  match arguments.find? name with
  | some earlier => arguments.insert name (Dependencies.mergeTwo earlier deps)
  | none => arguments.insert name deps

/-- Bind one argument: by name, to all remaining parameters when it is unpacked,
or to the next parameter. A variadic parameter takes all further arguments. -/
def Bound.bind (summary : Summary) (bound : Bound) (argument value : Node) (deps : Deps) : Bound :=
  let named := argument.argumentName
  if named != "" then { bound with arguments := bindName bound.arguments named deps }
  else if value.kind = "variadic_unpacking" then
    { bound with
      arguments := (summary.parameterNames.drop bound.position).foldl
        (fun arguments name => bindName arguments name deps) bound.arguments }
  else
    match summary.parameters[bound.position]? with
    | some parameter =>
        { arguments := bindName bound.arguments parameter.parameterName deps
          position :=
            if parameter.kind = "variadic_parameter" then bound.position else bound.position + 1 }
    | none => bound

/-- Trace one argument and bind it; an argument without a value binds nothing. -/
def bindArgument (trace : Node -> Tracing Deps) (summary : Summary) (bound : Bound)
    (argument : Node) : Tracing Bound := do
  match argument.argumentValue with
  | some value =>
      let deps ← trace value
      return bound.bind summary argument value deps
  | none => return bound

/-- Trace the default value of a parameter that no argument was bound to. -/
def bindDefault (trace : Node -> Tracing Deps) (arguments : Table String Deps) (parameter : Node) :
    Tracing (Table String Deps) := do
  match parameter.child? "default_value" with
  | some value =>
      if arguments.contains parameter.parameterName then return arguments
      else
        let deps ← trace value
        return arguments.insert parameter.parameterName deps
  | none => return arguments

/-- The dependencies of the arguments, by parameter name. -/
def bindArguments (trace : Node -> Tracing Deps) (summary : Summary) (arguments : List Node) :
    Tracing (Table String Deps) := do
  let bound ← arguments.foldlM (bindArgument trace summary) ⟨∅, 0⟩
  summary.parameters.foldlM (bindDefault trace) bound.arguments

/-- What one leaf of a return statement becomes at a call: a parameter gives way
to its argument, and remains only if something else is known of it. -/
def substituteLeaf (summary : Summary) (arguments : Table String Deps) (name : String)
    (record : LeafRecord) : List Deps :=
  if summary.parameterNames.contains name then
    let argument := (arguments.find? name).getD ∅
    let passed := argument.mapValues fun leaf => leaf.passedThrough record
    if record.level = .unassigned then [passed] else [passed, Dependencies.single name record]
  else [Dependencies.single name record]

/-- The dependencies of the returned value for given arguments. -/
def substitute (summary : Summary) (arguments : Table String Deps) : Deps :=
  Dependencies.merge
    (summary.returns.values.flatMap fun deps =>
      deps.entries.flatMap fun entry => substituteLeaf summary arguments entry.1 entry.2)

/-- The dependencies of the value that a call returns, seen by the running
tracer. -/
def callDependencies (trace : Node -> Tracing Deps) (summary : Summary) (arguments : List Node) :
    Tracing Deps := do
  let bound ← bindArguments trace summary arguments
  return substitute summary bound

/-- Trace one return statement. -/
def traceReturn (trace : Node -> Tracing Deps) (returns : Table Nat Deps) (statement : Node) :
    Tracing (Table Nat Deps) := do
  match statement.namedChildren.find? fun child => child.kind ≠ "comment" with
  | some value =>
      let deps ← trace value
      return Summary.addReturn returns statement.line deps
  | none => return Summary.addReturn returns statement.line ∅

/-- Trace everything that a function may return: the body of an arrow function,
the return statements of any other. -/
def traceReturns (trace : Node -> Tracing Deps) (declaration body : Node) :
    Tracing (Table Nat Deps) := do
  if declaration.construct = .arrowFunction then
    let deps ← trace body
    return Summary.addReturn ∅ body.line deps
  else body.returns.foldlM (traceReturn trace) ∅

/-- Build the summary of a declaration with a tracer of its own. A declaration
without a body returns nothing. -/
def buildSummary (trace : Node -> Tracing Deps) (declaration : Node) : Tracing Summary := do
  let tracer := Tracer.fresh declaration.parameterNames true
  match declaration.child? "body" with
  | none => return ⟨declaration, [], ∅, tracer⟩
  | some body =>
      let (returns, final) ← whileInProgress declaration.key
        (withTracer tracer (traceReturns trace declaration body))
      let statements :=
        if declaration.construct = .arrowFunction then [] else body.namedChildren
      remark ("Analysed " ++ functionName declaration ++ ": " ++
        toString declaration.parameters.length ++ " parameters, " ++ toString returns.size ++
        " return lines")
      return ⟨declaration, statements, returns, final⟩

/-- The summary of a declaration, built when it is first asked for. -/
def summaryOf (trace : Node -> Tracing Deps) (declaration : Node) : Tracing Summary := do
  match (← get).summaries.find? declaration.key with
  | some summary => return summary
  | none =>
      let summary ← buildSummary trace declaration
      modify fun memory =>
        { memory with summaries := memory.summaries.insert declaration.key summary }
      return summary

/-- Follow a call of a declared function; a call of any other function is left to
the caller. -/
def followCall (trace : Node -> Tracing Deps) (node : Node) (function : String) :
    Tracing (Option Deps) := do
  let scope ← scopeOfNode node
  let program ← read
  match program.registry.resolveFunction scope function with
  | .error fault => if fault.isUnbound then return none else throw fault
  | .ok declaration =>
      if (← get).inProgress.contains declaration.key then
        let label := normalizeName function ++ "()"
        remark ("Recursive call to " ++ label ++ " at line " ++ toString node.line ++
          ", treated as unknown")
        return some (unknownLeaf label (some (.referent node)))
      else
        let summary ← summaryOf trace declaration
        let deps ← callDependencies trace summary node.arguments
        return some deps

/-- Trace one argument of a call that is not followed. -/
def traceThrough (trace : Node -> Tracing Deps) (function : String) (argument : Node) :
    Tracing Deps := do
  let deps ← trace argument
  let program ← read
  return applyFunction program.rules deps function

/-- Trace a function call. -/
def traceCall (trace : Node -> Tracing Deps) (node : Node) : Tracing Deps := do
  match node.child? "function" with
  | none =>
      giveUp "dynamic function name" node
      return unknownLeaf node.text none
  | some callee =>
      if !isFunctionNameKind callee.kind then
        giveUp "dynamic function name" node
        return unknownLeaf callee.text none
      else
        let name := normalizeName callee.text
        let program ← read
        if program.rules.isInputFunction name then
          let label := name ++ "()"
          return Dependencies.single label (Record.leaf label .tainted (some (.referent node)))
        else
          let followed ←
            if (← get).tracer.followsCalls then followCall trace node callee.text else pure none
          match followed with
          | some deps => return deps
          | none =>
              let parts ← node.arguments.mapM (traceThrough trace name)
              return Dependencies.merge parts

end PhpTaint.Flow
