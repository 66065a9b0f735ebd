import PhpTaint.Scopes.Declare

/-!
# Missing names

Whoever looks something up or declares it may have no name for it. Nothing can
be bound to a variable without a name, so such a lookup finds nothing. A class
keeps a property and a constant without a name, and a namespace a constant. All
other operations work on the letters of a name and are refused, once they have
found the scope that they would have looked into.
-/

namespace PhpTaint.Scopes

variable {ν : Type}

/-- Refuse an operation that needs the letters of a name, once the scope it
works on has been found. -/
def refuseUnnamed {α : Type} (place : Registering ν ScopeId) : Registering ν α := do
  discard place
  throw .missingOperation

namespace Registry

/-- What a variable is bound to at a scope. -/
def variableNamed (registry : Registry ν) (id : ScopeId) :
    Option String -> Except Fault (Binding ν)
  | some name => registry.resolveVariable id name
  | none => .error (.unnamed (registry.nameOf id))

/-- A variable of a global scope at the end of the programs resolved so far. -/
def globalVariableNamed (registry : Registry ν) (id : ScopeId) (name : Option String) :
    Except Fault (Binding ν) :=
  registry.lookupAtEnd id fun scope => registry.variableNamed scope name

/-- A property of a class scope. -/
def propertyNamed (registry : Registry ν) (id : ScopeId) : Option String -> Except Fault ν
  | some name => registry.resolveProperty id name
  | none => do
      let members ← registry.membersOf id
      match members.unnamedProperty with
      | some declaration => return declaration
      | none => .error (.unnamed (registry.nameOf id))

/-- The constant that a name denotes at a scope. Only a class can be asked for
the one without a name. -/
def constantNamed (registry : Registry ν) (id : ScopeId) : Option String -> Except Fault ν
  | some name => registry.resolveConstant id name
  | none =>
      match (registry.membersOf id).toOption.bind Members.unnamedConstant with
      | some declaration => .ok declaration
      | none => do
          discard (registry.namespaceOf id)
          .error .missingOperation

end Registry

/-- Declare a property of a class. -/
def declarePropertyNamed (id : ScopeId) (name : Option String) (node : ν) : Registering ν Unit :=
  match name with
  | some given => declareProperty id given node
  | none => do
      discard (ask fun registry => registry.membersOf id)
      updateMembers id fun members => { members with unnamedProperty := some node }

/-- Declare a constant. A class keeps its own constants. -/
def declareConstantNamed (id : ScopeId) (name : Option String) (node : ν) : Registering ν Unit :=
  match name with
  | some given => declareConstant id given node
  | none => do
      match (← get).membersOf id with
      | .ok _ => updateMembers id fun members => { members with unnamedConstant := some node }
      | .error _ =>
          let space ← ask fun registry => registry.namespaceOf id
          updateSymbols space fun symbols => { symbols with unnamedConstant := some node }

end PhpTaint.Scopes
