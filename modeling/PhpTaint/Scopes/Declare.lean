import PhpTaint.Scopes.Lookup

/-!
# Declarations

Operations that open scopes and declare names. Binding a variable opens a child
scope and leaves the scope it is called on as it was. Declaring a function,
class, constant or namespace writes to the tables of the namespace in which the
scope stands. An operation that a kind of scope does not offer is refused.
-/

namespace PhpTaint.Scopes

variable {ν : Type}

/-- The result of a lookup inside an operation. -/
def ask {α : Type} (query : Registry ν -> Except Fault α) : Registering ν α := fun registry =>
  match query registry with
  | .ok value => .ok value registry
  | .error fault => .error fault registry

/-- Open a scope. -/
def openScope (scope : Scope ν) : Registering ν ScopeId := fun registry =>
  .ok registry.scopes.size { registry with scopes := registry.scopes.push scope }

/-- Open the global scope of a new program. -/
def openGlobal : Registering ν ScopeId := do
  let registry ← get
  openScope ⟨"Global", none, superglobals registry.scopes.size, .globalRoot ∅⟩

/-- Open a scope of a kind that binds no variable of its own. -/
def openEmpty (body : Body ν) (name : String) (parent : Option ScopeId) : Registering ν ScopeId :=
  openScope ⟨name, parent, ∅, body⟩

/-- Open the entry scope of a function: only the shared variables are bound. -/
def openFunction (name : String) (parent : Option ScopeId) : Registering ν ScopeId := do
  let unrooted := Fault.outsideProgram (⟨name, parent, ∅, .functionEntry⟩ : Scope ν).describe
  let root ← ask fun registry =>
    match parent with
    | some outer =>
        match registry.globalOf outer with
        | .ok root => .ok root
        | .error _ => .error unrooted
    | none => .error unrooted
  openScope ⟨name, parent, superglobals root, .functionEntry⟩

/-- The kind of scope that continues another one. -/
def Body.successor : Body ν -> Body ν
  | .namespaceRoot _ | .continuation | .globalRoot _ => .continuation
  | _ => .block

/-- Open a child scope that binds the given variables. -/
def openChild (id : ScopeId) (bindings : Table String (Binding ν)) : Registering ν ScopeId := do
  let registry ← get
  match registry.scope? id with
  | some scope => openScope ⟨scope.name, some id, bindings, scope.body.successor⟩
  | none => throw .missingOperation

/-- Open a child scope in which one variable has a new binding. -/
def bindVariable (id : ScopeId) (name : String) (binding : Binding ν) : Registering ν ScopeId :=
  if hasSigil name then openChild id (Table.empty.insert name binding)
  else throw (.notAVariable name)

/-- Bind a variable to the construct that gives it its value. -/
def bindByValue (id : ScopeId) (name : String) (node : ν) : Registering ν ScopeId :=
  bindVariable id name (.referent node)

/-- Bind a variable to the global variable of the same name. -/
def bindByReference (id : ScopeId) (name : String) (node : ν) : Registering ν ScopeId := do
  let root ← ask fun registry => registry.globalOf id
  bindVariable id name (.globalReference name node root)

/-- End the binding of a variable. -/
def unbindVariable (id : ScopeId) (name : String) : Registering ν ScopeId :=
  bindVariable id name .unset

/-- Bind a variable on entry to a function, in place. -/
def bindOnEntry (id : ScopeId) (name : String) (binding : Binding ν) : Registering ν Unit := do
  let registry ← get
  match registry.scope? id with
  | some { body := .functionEntry, .. } =>
      if hasSigil name then
        modify fun current => current.updateScope id fun scope =>
          { scope with bindings := scope.bindings.insert name binding }
      else throw (.notAVariable name)
  | _ => throw .missingOperation

/-- Change the tables of a namespace. -/
def updateSymbols (id : ScopeId) (change : Symbols ν -> Symbols ν) : Registering ν Unit :=
  modify fun registry => registry.updateScope id fun scope =>
    { scope with body := scope.body.updateSymbols change }

/-- Change the tables of a class. -/
def updateMembers (id : ScopeId) (change : Members ν -> Members ν) : Registering ν Unit :=
  modify fun registry => registry.updateScope id fun scope =>
    { scope with body := scope.body.updateMembers change }

/-- Enter a function in the tables of a namespace. -/
def addFunction (space : ScopeId) (name : String) (node : ν) : Registering ν Unit :=
  updateSymbols space fun symbols =>
    { symbols with functions := symbols.functions.insert (Text.lower name) node }

/-- Enter a class in the tables of a namespace. -/
def addClass (space : ScopeId) (name : String) (node : ν) : Registering ν Unit :=
  updateSymbols space fun symbols =>
    { symbols with classes := symbols.classes.insert (Text.lower name) node }

/-- Enter a constant in the tables of a namespace. -/
def addConstant (space : ScopeId) (name : String) (node : ν) : Registering ν Unit :=
  updateSymbols space fun symbols =>
    { symbols with constants := symbols.constants.insert name node }

/-- The namespace that a namespace scope writes to; other scopes do not offer
direct registration. -/
def registrationSpace (id : ScopeId) : Registering ν ScopeId := do
  let registry ← get
  match registry.scope? id with
  | some scope =>
      if scope.body.isNamespace then ask fun current => current.namespaceOf id
      else throw .missingOperation
  | none => throw .missingOperation

/-- Register a function with a namespace. -/
def registerFunction (id : ScopeId) (name : String) (node : ν) : Registering ν Unit := do
  let space ← registrationSpace id
  addFunction space name node

/-- Register a class with a namespace. -/
def registerClass (id : ScopeId) (name : String) (node : ν) : Registering ν Unit := do
  let space ← registrationSpace id
  addClass space name node

/-- Declare a function and open its entry scope. A class declares a method. -/
def declareFunction (id : ScopeId) (name : String) (node : ν) : Registering ν ScopeId := do
  let registry ← get
  match registry.scope? id with
  | some { name := className, body := .classBody _, .. } =>
      updateMembers id fun members =>
        { members with methods := members.methods.insert (Text.lower name) node }
      openFunction (className ++ "::" ++ name) (some id)
  | _ =>
      let space ← ask fun current => current.namespaceOf id
      addFunction space name node
      openFunction name (some id)

/-- Declare a class and open the scope of its body. -/
def declareClass (id : ScopeId) (name : String) (node : ν) : Registering ν ScopeId := do
  let space ← ask fun registry => registry.namespaceOf id
  addClass space name node
  openEmpty (.classBody ∅) name (some id)

/-- Declare a constant. A class keeps its own constants. -/
def declareConstant (id : ScopeId) (name : String) (node : ν) : Registering ν Unit := do
  let registry ← get
  match registry.scope? id with
  | some { body := .classBody _, .. } =>
      updateMembers id fun members =>
        { members with constants := members.constants.insert name node }
  | _ =>
      let space ← ask fun current => current.namespaceOf id
      addConstant space name node

/-- Declare a property of a class. -/
def declareProperty (id : ScopeId) (name : String) (node : ν) : Registering ν Unit := do
  let _ ← ask fun registry => registry.membersOf id
  updateMembers id fun members =>
    { members with properties := members.properties.insert name node }

/-- The full name of a namespace inside another one; the outermost one lends no
name. -/
def nestedName (outer : Scope ν) (name : String) : String :=
  if outer.parent.isNone then name else outer.name ++ "\\" ++ name

/-- The namespace of the given name directly inside another one, opened if it
does not exist. -/
def enterNamespace (id : ScopeId) (name : String) : Registering ν ScopeId := do
  let registry ← get
  match (registry.symbolsOf id).namespaces.find? (Text.lower name) with
  | some inner => return inner
  | none =>
      let qualified := match registry.scope? id with
        | some outer => nestedName outer name
        | none => name
      let inner ← openEmpty (.namespaceRoot ∅) qualified (some id)
      updateSymbols id fun symbols =>
        { symbols with namespaces := symbols.namespaces.insert (Text.lower name) inner }
      modify fun current => current.write ⟨.debug, .scopes, "Created namespace " ++ qualified⟩
      return inner

/-- The namespace that a relative name leads to from the namespace `id`; the
ones that do not exist are opened on the way. -/
def enterNamespaces (id : ScopeId) (name : List Char) : Registering ν ScopeId :=
  if isAbsolute name then throw (.absoluteName (String.ofList name))
  else if _single : isUnqualified name then enterNamespace id (String.ofList name)
  else do
    let inner ← enterNamespace id (String.ofList (headSegment name))
    enterNamespaces inner (tailSegments name)
termination_by name.length
decreasing_by exact length_tailSegments_lt (Bool.eq_false_iff.2 _single)

/-- Get or open a namespace by its name relative to that of a scope. -/
def declareNamespace (id : ScopeId) (name : String) : Registering ν ScopeId := do
  let space ← ask fun registry => registry.namespaceOf id
  enterNamespaces space name.toList

/-- Refuse an operation that only a global scope offers. -/
def requireGlobal (id : ScopeId) : Registering ν Unit :=
  ask fun registry => if registry.isGlobal id then .ok () else .error .missingOperation

/-- Record the scope in which a node stands. -/
def annotate (id : ScopeId) (node : ν) (scope : ScopeId) : Registering ν Unit := do
  requireGlobal id
  modify fun registry => registry.updateHistory id fun history =>
    { history with annotations := (node, scope) :: history.annotations }

/-- Record the scope in which a program ended. -/
def recordProgramEnd (id : ScopeId) (scope : ScopeId) : Registering ν Unit := do
  requireGlobal id
  modify fun registry => registry.updateHistory id fun history =>
    { history with programEnds := history.programEnds ++ [scope] }

end PhpTaint.Scopes
