import PhpTaint.Flow.Basic

/-!
# Flow through variables

A variable is followed to the binding that is visible where it is read. The
first record of a name is kept and used for every later reading of that name by
the same tracer; only when that binding is the one being followed is the name
looked up again. A definition that is already being followed contributes nothing
a second time, and one that has been followed contributes what was found then.

The rules are written against an arbitrary `trace` for expressions.
-/

namespace PhpTaint.Flow

open Scopes Syntax Rules

/-- The dependencies on a leaf that could not be resolved. -/
def unknownLeaf (name : String) (definition : Option (Binding Node)) : Deps :=
  Dependencies.single name (Record.leaf name .unknown definition)

/-- The dependencies on a parameter of the traced function. -/
def parameterLeaf (name : String) : Deps :=
  Dependencies.single name (Record.unassigned name)

/-- The record of a name as it is bound at a node. A name without a binding is
noted and its value is not known. -/
def lookupVariable (name : String) (node : Node) : Tracing LeafRecord := do
  let scope ← scopeOfNode node
  let program ← read
  match program.registry.resolveVariable scope name with
  | .ok binding => return Record.leaf name .unassigned (some binding)
  | .error fault =>
      remark (fault.message ++ " at line " ++ toString node.line ++ ", treated as unknown")
      updateTracer fun tracer => { tracer with unresolved := tracer.unresolved ++ [name] }
      return Record.leaf name .unknown none

/-- The record of a name that is read at a node: the first record is kept. -/
def resolveVariable (name : String) (node : Node) : Tracing LeafRecord := do
  let memory ← get
  match memory.tracer.records.find? name with
  | some record => return record
  | none =>
      let record ←
        if memory.tracer.parameters.contains name then pure (Record.unassigned name)
        else lookupVariable name node
      updateTracer fun tracer => { tracer with records := tracer.records.insert name record }
      return record

/-- Whether a definition is being followed. -/
def isActive (tracer : Tracer) (definition : Option (Binding Node)) : Bool :=
  match definition with
  | some (.referent node) => tracer.active.contains node.key
  | _ => false

/-- Follow a definition that is the value of a variable, unless it has been
followed before or is being followed. -/
def followDefinition (traceDefinition : String -> Node -> Tracing Deps) (name : String)
    (definition : Node) : Tracing Deps := do
  let memory ← get
  match memory.tracer.traced.find? definition.key with
  | some deps => return deps
  | none =>
      if memory.tracer.active.contains definition.key then
        remark ("Definition of " ++ name ++ " at line " ++ toString definition.line ++
          " is already being traced")
        return ∅
      else
        let deps ← whileActive definition.key (traceDefinition name definition)
        updateTracer fun tracer =>
          { tracer with traced := tracer.traced.insert definition.key deps }
        return deps

/-- Follow a binding that is not a reference to a global variable. -/
def followBinding (traceDefinition : String -> Node -> Tracing Deps) (name : String)
    (binding : Binding Node) : Tracing Deps := do
  match binding with
  | .referent definition => followDefinition traceDefinition name definition
  | .parameter parameter _ _ =>
      let memory ← get
      if memory.tracer.parameters.contains parameter then return parameterLeaf name
      else return unknownLeaf name (some binding)
  | .superglobal _ _ => return unknownLeaf name (some binding)
  | .globalReference _ _ _ | .unset => return unknownLeaf name none

/-- Follow a record to the leaves behind its binding. A reference is followed to
the global variable as it stands at the end of the programs. -/
def followRecord (traceDefinition : String -> Node -> Tracing Deps) (record : LeafRecord) :
    Tracing Deps := do
  match record.definition with
  | none => return Dependencies.single record.name record
  | some (.globalReference name node owner) =>
      let program ← read
      match program.registry.followReference (.globalReference name node owner) with
      | .ok binding => followBinding traceDefinition record.name binding
      | .error fault =>
          remark ("global " ++ record.name ++ ": " ++ fault.message)
          return unknownLeaf record.name none
  | some binding => followBinding traceDefinition record.name binding

/-- Follow a variable that is read. An input variable is a leaf by itself. -/
def traceVariable (traceDefinition : String -> Node -> Tracing Deps) (node : Node) :
    Tracing Deps := do
  let name := node.text
  let record ← resolveVariable name node
  let program ← read
  if program.rules.isInputVariable name then
    let tainted := { record with level := .tainted }
    updateTracer fun tracer => { tracer with records := tracer.records.insert name tainted }
    return Dependencies.single name tainted
  else
    let memory ← get
    let visible ←
      if isActive memory.tracer record.definition then lookupVariable name node else pure record
    followRecord traceDefinition visible

/-- The dependencies of what a variable held before a part of it was written. -/
def priorValue (traceDefinition : String -> Node -> Tracing Deps) (name : String) (left : Node) :
    Tracing Deps := do
  let base := if isContainerKind left.kind then left.containerBase else some left
  match base with
  | none => return ∅
  | some start =>
      if !start.isVariable then return ∅
      else
        let program ← read
        let memory ← get
        if program.rules.isInputVariable name then
          return Dependencies.single name (Record.leaf name .tainted none)
        else if memory.tracer.parameters.contains name then return parameterLeaf name
        else
          let scope ← scopeOfNode start
          match program.registry.resolveVariable scope name with
          | .ok binding =>
              followRecord traceDefinition (Record.leaf name .unassigned (some binding))
          | .error _ => return ∅

end PhpTaint.Flow
