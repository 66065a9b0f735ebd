import PhpTaint.Annotation.Visit

/-!
# Annotation with dictionaries

The plain reading of what annotation means. The variables at one point of a
program are a dictionary, statements change the dictionary on top of a stack,
and a construct with a body of its own pushes a dictionary and pops it
afterwards. A node is stamped with a copy of a dictionary, so no chain of scopes,
no boundary and no mark for an ended binding is needed.

The rules visit the parts of a construct in the order in which they are
evaluated: the value of an assignment, then its target, then the binding.
-/

namespace PhpTaint.Annotation.Dictionary

open Scopes Syntax

/-- The variables at one point of a program. -/
abbrev Store := Table String (Binding Node)

/-- What the reading of a program has to remember. -/
structure State where
  /-- The dictionaries of the open constructs, innermost first. -/
  stack : List Store
  /-- The dictionary in which each node stands, newest record first. -/
  stamps : List (Node × Store)

namespace State

/-- The current dictionary. -/
def top (state : State) : Store := state.stack.headD ∅

/-- Stamp a node with a dictionary. -/
def stamp (state : State) (node : Node) (store : Store) : State :=
  { state with stamps := (node, store) :: state.stamps }

/-- Stamp a node with the current dictionary. -/
def stampHere (state : State) (node : Node) : State := state.stamp node state.top

/-- Enter a construct with a dictionary of its own. -/
def enter (state : State) (store : Store) : State := { state with stack := store :: state.stack }

/-- Leave the innermost construct. -/
def leave (state : State) : State := { state with stack := state.stack.tail }

/-- Replace the current dictionary. -/
def overwrite (state : State) (store : Store) : State := state.leave.enter store

@[simp] theorem top_stampHere (state : State) (node : Node) :
    (state.stampHere node).top = state.top := rfl

/-- The dictionary that a node was last stamped with. -/
def storeOf? (state : State) (node : Node) : Option Store :=
  (state.stamps.find? fun entry => entry.1 == node).map Prod.snd

end State

/-- The dictionary after a variable was unset. -/
def forget (store : Store) (name : String) : Store :=
  store.filter fun candidate _ => decide (candidate ≠ name)

/-- The dictionary after variables were given their value by a construct. -/
def define (node : Node) (targets : List Node) (store : Store) : Store :=
  targets.foldl (fun current target => current.insert target.text (.referent node)) store

/-- The dictionary after one parameter was bound. -/
def bindParameter (store : Store) (entry : Node × Nat) : Store :=
  let name := entry.1.parameterName
  if name != "" then store.insert name (.parameter name entry.1 (Int.ofNat entry.2)) else store

/-- The dictionary after the parameters of a declaration were bound. -/
def bindParameters (store : Store) (declaration : Node) : Store :=
  declaration.parameters.zipIdx.foldl bindParameter store

/-- A reading of the parts of a construct. -/
abbrev Reading := Node -> State -> State

/-- Read the named children in order. -/
def readChildren (read : Reading) (node : Node) (state : State) : State :=
  node.namedChildren.foldl (fun current child => read child current) state

/-- Read a labelled part, if the node has it. -/
def readPart (read : Reading) (node : Node) (state : State) (label : String) : State :=
  match node.child? label with
  | some part => read part state
  | none => state

/-- Stamp a node with a dictionary and read some of its parts with it. -/
def readInside (read : Reading) (node : Node) (store : Store) (labels : List String)
    (state : State) : State :=
  (labels.foldl (readPart read node) ((state.stamp node store).enter store)).leave

/-- Enter a namespace: a named one knows the shared variables only, one without a
name starts with what is there. -/
def enterNamespace (owner : ScopeId) (node : Node) (state : State) : State :=
  let store := match node.child? "name" with
    | some _ => superglobals owner
    | none => state.top
  (state.stamp node store).enter store

/-- Read one top-level statement; the flag says whether a namespace without a
body is open. -/
def readStatement (owner : ScopeId) (read : Reading) (progress : State × Bool) (statement : Node) :
    State × Bool :=
  if opensNamespace statement then
    let outside := if progress.2 then progress.1.leave else progress.1
    (enterNamespace owner statement outside, true)
  else (read statement progress.1, progress.2)

/-- Read a whole file. -/
def readProgram (owner : ScopeId) (read : Reading) (node : Node) (state : State) : State :=
  let progress := node.namedChildren.foldl (readStatement owner read) (state.stampHere node, false)
  if progress.2 then progress.1.leave else progress.1

/-- Read a namespace with a body. -/
def readNamespace (owner : ScopeId) (read : Reading) (node : Node) (state : State) : State :=
  (readPart read node (enterNamespace owner node state) "body").leave

/-- Read a function: it knows the shared variables and its parameters. -/
def readFunction (owner : ScopeId) (read : Reading) (node : Node) (state : State) : State :=
  readInside read node (bindParameters (superglobals owner) node) ["parameters", "body"] state

/-- Read a method: it also knows its instance. -/
def readMethod (owner : ScopeId) (read : Reading) (node : Node) (state : State) : State :=
  let store := (bindParameters (superglobals owner) node).insert "$this"
    (.parameter "$this" node (-1))
  readInside read node store ["parameters", "body"] state

/-- Capture one variable, if it is bound outside. The variable stands outside. -/
def capture (progress : State × Store) (captured : Node) : State × Store :=
  (progress.1.stampHere captured,
    match progress.1.top.find? captured.text with
    | some binding => progress.2.insert captured.text binding
    | none => progress.2)

/-- Read a closure: it also knows the variables that it captures. -/
def readClosure (owner : ScopeId) (read : Reading) (node : Node) (state : State) : State :=
  let progress := (capturedVariables node).foldl capture
    (state, bindParameters (superglobals owner) node)
  readInside read node progress.2 ["parameters", "body"] progress.1

/-- Read an arrow function: it knows what is there and its parameters. -/
def readArrowFunction (read : Reading) (node : Node) (state : State) : State :=
  readInside read node (bindParameters state.top node) ["parameters", "body"] state

/-- Read a class: no variable is known in it. -/
def readClass (read : Reading) (node : Node) (state : State) : State :=
  readInside read node ∅ ["body"] state

/-- Read an element of a property declaration. -/
def readPropertyElement (read : Reading) (state : State) (element : Node) : State :=
  if element.kind = "property_element" then readChildren read element (state.stampHere element)
  else read element state

/-- Read a property declaration. -/
def readProperty (read : Reading) (node : Node) (state : State) : State :=
  node.namedChildren.foldl (readPropertyElement read) (state.stampHere node)

/-- Read one name of a global declaration. -/
def readGlobalName (owner : ScopeId) (node : Node) (progress : State × Store) (child : Node) :
    State × Store :=
  (progress.1.stamp child progress.2,
    if child.isVariable then
      progress.2.insert child.text (.globalReference child.text node owner)
    else progress.2)

/-- Read a global declaration. -/
def readGlobal (owner : ScopeId) (node : Node) (state : State) : State :=
  let progress := node.namedChildren.foldl (readGlobalName owner node) (state, state.top)
  (progress.1.overwrite progress.2).stamp node progress.2

/-- The dictionary after one name of an unset statement. -/
def unsetName (store : Store) (child : Node) : Store :=
  if child.isVariable then forget store child.text else store

/-- Read an unset statement. -/
def readUnset (read : Reading) (node : Node) (state : State) : State :=
  let inner := readChildren read node state
  let store := node.namedChildren.foldl unsetName inner.top
  (inner.overwrite store).stamp node store

/-- The variables that an assignment gives a value to. -/
def assigned (node : Node) : List Node :=
  match node.child? "left" with
  | some left => left.targets
  | none => []

/-- Read an assignment. -/
def readAssignment (read : Reading) (node : Node) (state : State) : State :=
  let inner := readPart read node (readPart read node state "right") "left"
  let store := define node (assigned node) inner.top
  (inner.overwrite store).stamp node store

/-- Read an iteration: what is iterated, the variables, the body. -/
def readIteration (read : Reading) (node : Node) (state : State) : State :=
  match node.namedChildren with
  | iterated :: binding :: body =>
      let inner := read binding (read iterated (state.stampHere node))
      body.foldl (fun current part => read part current)
        (inner.overwrite (define node binding.targets inner.top))
  | _ => readChildren read node (state.stampHere node)

/-- Read the declaration of a static variable. -/
def readStaticVariable (read : Reading) (node : Node) (state : State) : State :=
  let inner := readPart read node state "value"
  match node.child? "name" with
  | some name =>
      if name.isVariable then
        let store := inner.top.insert name.text (.referent node)
        ((inner.stampHere name).overwrite store).stamp node store
      else inner.stampHere node
  | none => inner.stampHere node

/-- Read a node that changes no dictionary of its own. -/
def readPlain (read : Reading) (node : Node) (state : State) : State :=
  readChildren read node (state.stampHere node)

/-- Read a node by the rule of its construct. -/
def readNode (owner : ScopeId) (read : Reading) (node : Node) (state : State) : State :=
  match node.construct with
  | .program => readProgram owner read node state
  | .namespaceDefinition => readNamespace owner read node state
  | .functionDefinition => readFunction owner read node state
  | .methodDeclaration => readMethod owner read node state
  | .closure => readClosure owner read node state
  | .arrowFunction => readArrowFunction read node state
  | .classDeclaration => readClass read node state
  | .propertyDeclaration => readProperty read node state
  | .globalDeclaration => readGlobal owner node state
  | .unset => readUnset read node state
  | .assignment => readAssignment read node state
  | .iteration => readIteration read node state
  | .staticVariable => readStaticVariable read node state
  | .constantDeclaration | .call | .plain => readPlain read node state

/-- Read a tree of at most the given height. -/
def read (owner : ScopeId) : Nat -> Reading
  | 0, _, state => state
  | height + 1, node, state => readNode owner (read owner height) node state

/-- Read a file: it starts with the shared variables. -/
def readFile (owner : ScopeId) (state : State) (root : Node) : State :=
  read owner root.tree.height root { state with stack := [superglobals owner] }

/-- Read files one after the other. -/
def readFiles (owner : ScopeId) (roots : List Node) : State :=
  roots.foldl (readFile owner) ⟨[], []⟩

end PhpTaint.Annotation.Dictionary
