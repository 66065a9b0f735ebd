import PhpTaint.Scopes.Basic
import PhpTaint.Scopes.Name

/-!
# Lookups

Lookups read a registry and never change it. A variable is searched along the
chain of parents, up to the nearest function or class boundary. A function,
class or constant is searched in the namespace that its name leads to; an
unqualified function or constant that its own namespace does not declare is
searched once more in the global namespace.
-/

namespace PhpTaint.Scopes

/-- The first binding of a name along a chain, up to the first boundary. -/
def searchChain {ν : Type} (name : String) : List (ScopeId × Scope ν) -> Option (Binding ν)
  | [] => none
  | (_, scope) :: outer =>
      match scope.bindings.find? name with
      | some binding => some binding
      | none => if scope.body.isBoundary then none else searchChain name outer

/-- The place in a chain at which a name is bound, up to the first boundary. -/
def searchSite {ν : Type} (name : String) : List (ScopeId × Scope ν) -> Option ScopeId
  | [] => none
  | (id, scope) :: outer =>
      if scope.bindings.contains name then some id
      else if scope.body.isBoundary then none
      else searchSite name outer

/-- The namespace that the head of a chain continues. -/
def continuedNamespace {ν : Type} : List (ScopeId × Scope ν) -> Except Fault ScopeId
  | [] => .error .strayContinuation
  | (id, scope) :: outer =>
      match scope.body with
      | .continuation => continuedNamespace outer
      | .namespaceRoot _ | .globalRoot _ => .ok id
      | _ => .error .strayContinuation

/-- The innermost namespace of a chain. -/
def innermostNamespace {ν : Type} (start : String) :
    List (ScopeId × Scope ν) -> Except Fault ScopeId
  | [] => .error (.outsideNamespace start)
  | (id, scope) :: outer =>
      match scope.body with
      | .namespaceRoot _ | .globalRoot _ => .ok id
      | .continuation => continuedNamespace outer
      | _ => innermostNamespace start outer

/-- The kinds of declarations that a namespace keeps. -/
inductive SymbolKind where
  /-- A function: letter case is ignored, the global namespace is tried last. -/
  | function
  /-- A class: letter case is ignored. -/
  | classLike
  /-- A constant: the global namespace is tried last. -/
  | constant
  deriving DecidableEq, Repr

namespace SymbolKind

/-- The table of a kind. -/
def table {ν : Type} (symbols : Symbols ν) : SymbolKind -> Table String ν
  | .function => symbols.functions
  | .classLike => symbols.classes
  | .constant => symbols.constants

/-- The key under which a name of this kind is kept. -/
def keyOf (name : String) : SymbolKind -> String
  | .constant => name
  | _ => Text.lower name

/-- Whether an unqualified name may also be declared globally. -/
def fallsBack : SymbolKind -> Bool
  | .classLike => false
  | _ => true

end SymbolKind

namespace Registry

variable {ν : Type}

/-- What a variable is bound to at a scope. -/
def resolveVariable (registry : Registry ν) (id : ScopeId) (name : String) :
    Except Fault (Binding ν) :=
  match searchChain name (registry.chain id) with
  | none | some .unset => .error (.unbound name (registry.nameOf id))
  | some binding => .ok binding

/-- The namespace in which a scope stands; a namespace stands in itself. -/
def namespaceOf (registry : Registry ν) (id : ScopeId) : Except Fault ScopeId :=
  innermostNamespace (registry.describe id) (registry.chain id)

/-- The global scope of the program that a scope belongs to. -/
def globalOf (registry : Registry ν) (id : ScopeId) : Except Fault ScopeId :=
  match (registry.chain id).getLast? with
  | some (root, scope) =>
      if scope.body.isGlobal then .ok root else .error (.outsideProgram (registry.describe id))
  | none => .error (.outsideProgram (registry.describe id))

/-- The declarations of a namespace. -/
def symbolsOf (registry : Registry ν) (id : ScopeId) : Symbols ν :=
  match registry.scope? id with
  | some scope => scope.body.symbols?.getD ∅
  | none => ∅

/-- The namespace of the given name directly inside another one. -/
def nestedNamespace (registry : Registry ν) (id : ScopeId) (name : String) :
    Except Fault ScopeId :=
  match (registry.symbolsOf id).namespaces.find? (Text.lower name) with
  | some inner => .ok inner
  | none => .error (.unbound name (registry.nameOf id))

/-- The namespace that a name leads to, seen from the namespace `id`. -/
def namespaceAt (registry : Registry ν) (id : ScopeId) (name : List Char) : Except Fault ScopeId :=
  if name.isEmpty then .ok id
  else
    match _view : NameView.of name with
    | .absolute rest => do
        let root ← registry.globalOf id
        registry.namespaceAt root rest
    | .plain segment => registry.nestedNamespace id (String.ofList segment)
    | .qualified head tail => do
        let inner ← registry.nestedNamespace id (String.ofList head)
        registry.namespaceAt inner tail
termination_by name.length
decreasing_by
  · exact NameView.length_absolute_lt _view
  · exact NameView.length_qualified_lt _view

/-- The declaration of a single-segment name in the namespace `id`, or in the
global one when `fallback` allows it. -/
def localSymbol (registry : Registry ν) (kind : SymbolKind) (fallback : Bool) (id : ScopeId)
    (name : String) : Except Fault ν :=
  match (kind.table (registry.symbolsOf id)).find? (kind.keyOf name) with
  | some declaration => .ok declaration
  | none => do
      let root ← registry.globalOf id
      if fallback && id != root then
        match (kind.table (registry.symbolsOf root)).find? (kind.keyOf name) with
        | some declaration => .ok declaration
        | none => .error (.unbound name (registry.nameOf root))
      else .error (.unbound name (registry.nameOf id))

/-- The declaration that a name denotes, seen from the namespace `id`. -/
def symbolAt (registry : Registry ν) (kind : SymbolKind) (fallback : Bool) (id : ScopeId)
    (name : List Char) : Except Fault ν :=
  match _view : NameView.of name with
  | .absolute rest => do
      let root ← registry.globalOf id
      registry.symbolAt kind false root rest
  | .plain segment => registry.localSymbol kind fallback id (String.ofList segment)
  | .qualified head tail => do
      let inner ← registry.nestedNamespace id (String.ofList head)
      registry.symbolAt kind false inner tail
termination_by name.length
decreasing_by
  · exact NameView.length_absolute_lt _view
  · exact NameView.length_qualified_lt _view

/-- The namespace that a name denotes at a scope; no name denotes the namespace
of the scope. -/
def resolveNamespace (registry : Registry ν) (id : ScopeId) (name : Option String) :
    Except Fault ScopeId := do
  let start ← registry.namespaceOf id
  registry.namespaceAt start (name.getD "").toList

/-- The declaration of a kind that a name denotes at a scope. -/
def resolveSymbol (registry : Registry ν) (kind : SymbolKind) (id : ScopeId) (name : String) :
    Except Fault ν := do
  let start ← registry.namespaceOf id
  registry.symbolAt kind kind.fallsBack start name.toList

/-- The function that a name denotes at a scope. -/
def resolveFunction (registry : Registry ν) (id : ScopeId) (name : String) : Except Fault ν :=
  registry.resolveSymbol .function id name

/-- The class that a name denotes at a scope. -/
def resolveClass (registry : Registry ν) (id : ScopeId) (name : String) : Except Fault ν :=
  registry.resolveSymbol .classLike id name

/-- The members of a class scope; other scopes have none to ask for. -/
def membersOf (registry : Registry ν) (id : ScopeId) : Except Fault (Members ν) :=
  match (registry.scope? id).bind fun scope => scope.body.members? with
  | some members => .ok members
  | none => .error .missingOperation

/-- The constant that a name denotes at a scope: a class looks at its own
constants first. -/
def resolveConstant (registry : Registry ν) (id : ScopeId) (name : String) : Except Fault ν :=
  match (registry.scope? id).bind fun scope => scope.body.members? with
  | some members =>
      match members.constants.find? name with
      | some declaration => .ok declaration
      | none => registry.resolveSymbol .constant id name
  | none => registry.resolveSymbol .constant id name

/-- A property of a class scope. -/
def resolveProperty (registry : Registry ν) (id : ScopeId) (name : String) : Except Fault ν := do
  let members ← registry.membersOf id
  match members.properties.find? name with
  | some declaration => .ok declaration
  | none => .error (.unbound name (registry.nameOf id))

/-- A method of a class scope. -/
def resolveMethod (registry : Registry ν) (id : ScopeId) (name : String) : Except Fault ν := do
  let members ← registry.membersOf id
  match members.methods.find? (Text.lower name) with
  | some declaration => .ok declaration
  | none => .error (.unbound name (registry.nameOf id))

/-- The nearest class scope around a scope. -/
def enclosingClass (registry : Registry ν) (id : ScopeId) : Except Fault ScopeId :=
  match (registry.chain id).find? fun entry => entry.2.body.members?.isSome with
  | some (scope, _) => .ok scope
  | none => .error .missingOperation

/-- The first success of a lookup at several scopes. What is no scope of the
registry cannot be asked. -/
def firstBound (registry : Registry ν) (lookup : ScopeId -> Except Fault (Binding ν)) :
    List ScopeId -> Except Fault (Option (Binding ν))
  | [] => .ok none
  | id :: rest =>
      match registry.scope? id, lookup id with
      | none, _ => .error .missingOperation
      | some _, .ok binding => .ok (some binding)
      | some _, .error _ => registry.firstBound lookup rest

/-- Whether the scope at a place is the root of a program. -/
def isGlobal (registry : Registry ν) (id : ScopeId) : Bool :=
  match registry.scope? id with
  | some scope => scope.body.isGlobal
  | none => false

/-- What a lookup finds at the end of the programs resolved into a global scope,
the most recent one first, and then at that scope itself. -/
def lookupAtEnd (registry : Registry ν) (id : ScopeId)
    (lookup : ScopeId -> Except Fault (Binding ν)) : Except Fault (Binding ν) := do
  if registry.isGlobal id then
    match ← registry.firstBound lookup (registry.historyOf id).programEnds.reverse with
    | some binding => return binding
    | none => lookup id
  else .error .missingOperation

/-- A variable of a global scope as it stands at the end of the programs
resolved so far. -/
def resolveGlobalVariable (registry : Registry ν) (id : ScopeId) (name : String) :
    Except Fault (Binding ν) :=
  registry.lookupAtEnd id fun scope => registry.resolveVariable scope name

/-- The variable behind a reference to a global one. -/
def followReference (registry : Registry ν) : Binding ν -> Except Fault (Binding ν)
  | .globalReference name _ owner => registry.resolveGlobalVariable owner name
  | _ => .error .missingOperation

/-- The scope in which a node stands. -/
def scopeOf [Referent ν] (registry : Registry ν) (id : ScopeId) (node : ν) :
    Except Fault ScopeId :=
  if registry.isGlobal id then
    match (registry.historyOf id).annotations.find? fun entry => entry.1 == node with
    | some (_, scope) => .ok scope
    | none => .error (.unannotated (Referent.describe node))
  else .error .missingOperation

/-- Whether a name has one and the same binding at two scopes: they find it at
one place, or find one shared variable of one program. -/
def sharesBinding (registry : Registry ν) (left right : ScopeId) (name : String) :
    Except Fault Bool := do
  let leftBinding ← registry.resolveVariable left name
  let rightBinding ← registry.resolveVariable right name
  match leftBinding, rightBinding with
  | .superglobal leftName leftOwner, .superglobal rightName rightOwner =>
      return leftName == rightName && leftOwner == rightOwner
  | _, _ =>
      return searchSite name (registry.chain left) == searchSite name (registry.chain right)

/-- The bindings behind the shared variable that lists all global variables.
Only a global scope owns them. -/
def globalBindings (registry : Registry ν) (id : ScopeId) :
    Except Fault (Table String (Binding ν)) :=
  match registry.scope? id with
  | some scope => if scope.body.isGlobal then .ok scope.bindings else .error .missingOperation
  | none => .error .missingOperation

end Registry

end PhpTaint.Scopes
