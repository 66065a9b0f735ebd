import PhpTaint.Scopes.Declare
import PhpTaint.Syntax.Shape

/-!
# The stack of current scopes

While a program is annotated, the scope in which the next node stands is the top
of a stack. Constructs with a body of their own push a scope and pop it
afterwards; bindings replace the top, so that later nodes of the same body see
the new binding and earlier ones keep their snapshot.

The stack and the registry survive a fault: what was annotated before it stays.
-/

namespace PhpTaint.Annotation

open Scopes Syntax

instance : Referent Node where
  describe := Node.describe

/-- The state of an annotation run. -/
structure Annotator where
  registry : Registry Node
  globalScope : ScopeId
  /-- The current scopes, innermost first. -/
  stack : List ScopeId

/-- A step of an annotation run. -/
abbrev Annotating := EStateM Fault Annotator

/-- A run that has opened its global scope and entered no program yet. -/
def Annotator.start : Annotator :=
  match (openGlobal : Registering Node ScopeId) ∅ with
  | .ok globalScope registry => ⟨registry, globalScope, []⟩
  | .error _ registry => ⟨registry, 0, []⟩

/-- Perform an operation on the registry. -/
def onRegistry {α : Type} (operation : Registering Node α) : Annotating α := fun state =>
  match operation state.registry with
  | .ok value registry => .ok value { state with registry := registry }
  | .error fault registry => .error fault { state with registry := registry }

/-- Take a note. -/
def remark (text : String) : Annotating Unit :=
  modify fun state => { state with registry := state.registry.write ⟨.debug, .annotating, text⟩ }

/-- The current scope. -/
def currentScope : Annotating ScopeId := do
  match (← get).stack with
  | top :: _ => return top
  | [] => throw .outOfRange

/-- Replace the current scope. -/
def replaceScope (scope : ScopeId) : Annotating Unit := do
  match (← get).stack with
  | _ :: outer => modify fun state => { state with stack := scope :: outer }
  | [] => throw .noCurrentScope

/-- Enter a scope. -/
def pushScope (scope : ScopeId) : Annotating Unit :=
  modify fun state => { state with stack := scope :: state.stack }

/-- Leave the current scope. The outermost one cannot be left. -/
def popScope : Annotating ScopeId := do
  match (← get).stack with
  | top :: next :: outer =>
      modify fun state => { state with stack := next :: outer }
      return top
  | _ => throw .outermostScope

/-- Record that a node stands in a scope. -/
def stamp (node : Node) (scope : ScopeId) : Annotating Unit := do
  let state ← get
  onRegistry (annotate state.globalScope node scope)

/-- Record that a node stands in the current scope. -/
def stampHere (node : Node) : Annotating Unit := do
  stamp node (← currentScope)

/-- Record that top-level code ended in a scope. -/
def endProgram (scope : ScopeId) : Annotating Unit := do
  let state ← get
  onRegistry (recordProgramEnd state.globalScope scope)

end PhpTaint.Annotation
