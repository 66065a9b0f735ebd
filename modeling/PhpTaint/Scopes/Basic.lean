import PhpTaint.Fault
import PhpTaint.Journal
import PhpTaint.Table

/-!
# Scopes

A variable exists once the statement that binds it has run, and it can be
unbound again. Instead of one table that changes, every binding opens a new
scope that holds a single name and leaves everything else to its parent. A
reference to a scope is therefore a snapshot of the variables at one point of
the program, and later statements cannot change it.

Functions, classes, constants and namespaces are visible from anywhere once they
are declared. They live in tables of the namespace that declares them, and those
tables are shared by all scopes inside it.

A `Registry` holds every scope that was opened, and a scope is known by its
place in it. A parent is always opened before its children, so identifiers
decrease along every chain of parents.

What identifiers are bound to is a parameter `ν`; in an analysis it is the type
of syntax nodes.
-/

namespace PhpTaint.Scopes

/-- The place of a scope in its registry. -/
abbrev ScopeId := Nat

/-- What identifiers can be bound to: referents are compared for identity and
shown in messages. -/
class Referent (ν : Type) extends BEq ν where
  /-- The referent as messages show it. -/
  describe : ν -> String

/-- What a variable is bound to. -/
inductive Binding (ν : Type) where
  /-- The construct that gave the variable its value. -/
  | referent (node : ν)
  /-- A variable bound on entry to a function; its value is known only at a
  call. -/
  | parameter (name : String) (node : ν) (index : Int)
  /-- A variable that every scope of a program shares. -/
  | superglobal (name : String) (owner : ScopeId)
  /-- The variable of that name in the global scope `owner`. -/
  | globalReference (name : String) (node : ν) (owner : ScopeId)
  /-- The variable was unbound. -/
  | unset
  deriving Repr

/-- A binding as messages show it. -/
def Binding.describe {ν : Type} [Referent ν] : Binding ν -> String
  | .referent node | .parameter _ node _ => Referent.describe node
  | .superglobal name _ => "Superglobal(name=" ++ Text.quoted name ++ ")"
  | .globalReference name _ _ => "GlobalReference(name=" ++ Text.quoted name ++ ")"
  | .unset => "UNSET"

/-- The declarations of a namespace, by name. -/
structure Symbols (ν : Type) where
  /-- Functions, by lower-case name. -/
  functions : Table String ν
  /-- Classes, by lower-case name. -/
  classes : Table String ν
  /-- Constants, by name. -/
  constants : Table String ν
  /-- Nested namespaces, by lower-case name. -/
  namespaces : Table String ScopeId
  /-- The constant that was declared without a name. -/
  unnamedConstant : Option ν

/-- The declarations of a class, by name. -/
structure Members (ν : Type) where
  /-- Properties, by name with sigil. -/
  properties : Table String ν
  /-- Methods, by lower-case name. -/
  methods : Table String ν
  /-- Constants, by name. -/
  constants : Table String ν
  /-- The property that was declared without a name. -/
  unnamedProperty : Option ν
  /-- The constant that was declared without a name. -/
  unnamedConstant : Option ν

instance {ν : Type} : EmptyCollection (Symbols ν) := ⟨⟨∅, ∅, ∅, ∅, none⟩⟩

instance {ν : Type} : EmptyCollection (Members ν) := ⟨⟨∅, ∅, ∅, none, none⟩⟩

/-- What kind of scope a scope is, with the declarations it owns. -/
inductive Body (ν : Type) where
  /-- A snapshot inside a function or class. -/
  | block
  /-- The entry of a function, method or closure. -/
  | functionEntry
  /-- A class body. -/
  | classBody (members : Members ν)
  /-- A namespace. -/
  | namespaceRoot (symbols : Symbols ν)
  /-- A snapshot of the top-level code of a namespace. -/
  | continuation
  /-- The global namespace of a program. -/
  | globalRoot (symbols : Symbols ν)

/-- One scope. -/
structure Scope (ν : Type) where
  /-- The name of the function, class or namespace it belongs to. -/
  name : String
  parent : Option ScopeId
  bindings : Table String (Binding ν)
  body : Body ν

/-- What is recorded about the programs resolved into one global scope. -/
structure History (ν : Type) where
  /-- The scope in which each node stands, newest record first. -/
  annotations : List (ν × ScopeId)
  /-- The scopes in which top-level code ended, oldest first. -/
  programEnds : List ScopeId

instance {ν : Type} : EmptyCollection (History ν) := ⟨⟨[], []⟩⟩

/-- Every scope opened so far, what is recorded for each global scope, and the
notes taken on the way. -/
structure Registry (ν : Type) where
  /-- The scopes, in order of opening. -/
  scopes : Array (Scope ν)
  /-- What is recorded for each global scope. -/
  histories : Table ScopeId (History ν)
  /-- Notes, newest first. -/
  journal : Journal

instance {ν : Type} : EmptyCollection (Registry ν) := ⟨⟨#[], ∅, []⟩⟩

instance {ν : Type} : Inhabited (Registry ν) := ⟨∅⟩

/-- An operation on a registry. What was opened or declared before a fault
stays. -/
abbrev Registering (ν : Type) := EStateM Fault (Registry ν)

/-- The variables that every scope of a program shares. -/
def superglobalNames : List String :=
  ["$GLOBALS", "$_SERVER", "$_GET", "$_POST", "$_FILES", "$_COOKIE", "$_SESSION", "$_REQUEST",
    "$_ENV"]

/-- The shared variables of a global scope. -/
def superglobals {ν : Type} (owner : ScopeId) : Table String (Binding ν) :=
  Table.ofList (superglobalNames.map fun name => (name, .superglobal name owner))

/-- Whether a name carries the sigil of variables. -/
def hasSigil (name : String) : Bool := name.toList.head? == some '$'

namespace Body

variable {ν : Type}

/-- Whether lookups of variables stop at a scope of this kind. -/
def isBoundary : Body ν -> Bool
  | .functionEntry | .classBody _ => true
  | _ => false

/-- The declarations of a namespace that owns some. -/
def symbols? : Body ν -> Option (Symbols ν)
  | .namespaceRoot symbols | .globalRoot symbols => some symbols
  | _ => none

/-- The same kind of scope with changed namespace declarations. -/
def updateSymbols (change : Symbols ν -> Symbols ν) : Body ν -> Body ν
  | .namespaceRoot symbols => .namespaceRoot (change symbols)
  | .globalRoot symbols => .globalRoot (change symbols)
  | other => other

/-- The declarations of a class body. -/
def members? : Body ν -> Option (Members ν)
  | .classBody members => some members
  | _ => none

/-- The same kind of scope with changed class declarations. -/
def updateMembers (change : Members ν -> Members ν) : Body ν -> Body ν
  | .classBody members => .classBody (change members)
  | other => other

/-- Whether a scope is the root of a program. -/
def isGlobal : Body ν -> Bool
  | .globalRoot _ => true
  | _ => false

/-- Whether a scope is a namespace or continues one. -/
def isNamespace : Body ν -> Bool
  | .namespaceRoot _ | .continuation | .globalRoot _ => true
  | _ => false

/-- The kind of scope as messages show it. -/
def label : Body ν -> String
  | .block => "ScopeEnvironment"
  | .functionEntry => "FunctionEnvironment"
  | .classBody _ => "ClassEnvironment"
  | .namespaceRoot _ => "NamespaceEnvironment"
  | .continuation => "NamespaceContinuationEnvironment"
  | .globalRoot _ => "GlobalEnvironment"

end Body

/-- A scope as messages show it. -/
def Scope.describe {ν : Type} (scope : Scope ν) : String :=
  scope.body.label ++ "(" ++ Text.quoted scope.name ++ ")"

namespace Registry

variable {ν : Type}

/-- The scope at a place. -/
def scope? (registry : Registry ν) (id : ScopeId) : Option (Scope ν) := registry.scopes[id]?

/-- The name of the scope at a place. -/
def nameOf (registry : Registry ν) (id : ScopeId) : String :=
  match registry.scope? id with
  | some scope => scope.name
  | none => ""

/-- The scope at a place as messages show it. -/
def describe (registry : Registry ν) (id : ScopeId) : String :=
  match registry.scope? id with
  | some scope => scope.describe
  | none => ""

/-- A scope and its ancestors, innermost first, each with its place. -/
def chain (registry : Registry ν) (id : ScopeId) : List (ScopeId × Scope ν) :=
  match registry.scope? id with
  | none => []
  | some scope =>
      (id, scope) ::
        match scope.parent with
        | none => []
        | some parent => if parent < id then registry.chain parent else []
termination_by id

/-- What is recorded for a global scope. -/
def historyOf (registry : Registry ν) (id : ScopeId) : History ν :=
  (registry.histories.find? id).getD ∅

/-- Change one scope. -/
def updateScope (registry : Registry ν) (id : ScopeId) (change : Scope ν -> Scope ν) : Registry ν :=
  { registry with scopes := registry.scopes.modify id change }

/-- Change what is recorded for a global scope. -/
def updateHistory (registry : Registry ν) (id : ScopeId) (change : History ν -> History ν) :
    Registry ν :=
  { registry with histories := registry.histories.insert id (change (registry.historyOf id)) }

/-- Take a note. -/
def write (registry : Registry ν) (note : Note) : Registry ν :=
  { registry with journal := note :: registry.journal }

end Registry

end PhpTaint.Scopes
