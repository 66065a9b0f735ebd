import PhpTaint.Proofs.Annotation.Paths

/-!
# Functions as the text declares them

The functions of some files are listed in the order in which annotation comes to
their definitions, each at the path at which the definition stands. A definition in a
class body belongs to the class, as long as no variable was bound in the body before
it; nothing else about scopes is remembered.
-/

namespace PhpTaint.Annotation

open Scopes Syntax

namespace Lexical

/-- A function that a file declares. -/
structure Declaration where
  /-- The path of the namespaces around the definition. -/
  path : Path
  name : String
  node : Node

/-- The path of a function with its own name, in lower case. -/
def Declaration.fullName (declaration : Declaration) : Path :=
  declaration.path ++ [Text.lower declaration.name]

/-- What the reading of a program has to remember. -/
structure State where
  /-- Whether the reading is in a class body in which no variable was bound. -/
  inClass : Bool
  /-- The functions declared so far, newest first. -/
  declared : List Declaration

namespace State

/-- Enter a construct. -/
def within (state : State) (isClass : Bool) : State := { state with inClass := isClass }

/-- Bind variables, if there are any. -/
def bound (state : State) (binds : Bool) : State := state.within (state.inClass && !binds)

/-- Declare a function at a path, unless a class has it. -/
def declare (state : State) (path : Path) (name : String) (node : Node) : State :=
  if state.inClass then state
  else { state with declared := ⟨path, name, node⟩ :: state.declared }

/-- The function that was declared last under a full name. -/
def last? (state : State) (fullName : Path) : Option Node :=
  (state.declared.find? fun declaration => declaration.fullName = fullName).map Declaration.node

theorem inClass_declare (state : State) (path : Path) (name : String) (node : Node) :
    (state.declare path name node).inClass = state.inClass := by
  unfold declare
  split <;> rfl

/-- A declaration outside a class is the last one under its full name. -/
theorem last?_declare (state : State) (path : Path) (name : String) (node : Node)
    (fullName : Path) :
    (state.declare path name node).last? fullName =
      if state.inClass = false ∧ path ++ [Text.lower name] = fullName then some node
      else state.last? fullName := by
  unfold declare
  cases state.inClass with
  | true => simp
  | false =>
      simp only [last?, Bool.false_eq_true, if_false, true_and, List.find?_cons,
        Declaration.fullName]
      by_cases same : path ++ [Text.lower name] = fullName <;> simp [same]

/-- The function that a name calls from a path: a name of a single segment that is
not declared there may be declared globally. -/
def called? (state : State) (path : Path) (name : List Char) : Option Node :=
  if isAbsolute name then state.last? ((segmentsOf name.tail).map Text.lower)
  else (state.last? (path ++ (segmentsOf name).map Text.lower)).or
    (if isUnqualified name then state.last? ((segmentsOf name).map Text.lower) else none)

end State

/-- A reading of the parts of a construct. -/
abbrev Reading := Path -> Node -> State -> State

/-- Read the named children in order. -/
def readChildren (read : Reading) (path : Path) (node : Node) (state : State) : State :=
  node.namedChildren.foldl (fun current child => read path child current) state

/-- Read a labelled part, if the node has it. -/
def readPart (read : Reading) (path : Path) (node : Node) (state : State) (label : String) :
    State :=
  match node.child? label with
  | some part => read path part state
  | none => state

/-- Read some parts of a construct with a scope of its own. -/
def readInside (read : Reading) (path : Path) (node : Node) (isClass : Bool)
    (labels : List String) (state : State) : State :=
  (labels.foldl (readPart read path node) (state.within isClass)).within state.inClass

/-- Whether a namespace goes on with the scope around it. -/
def continuesScope (node : Node) : Bool := (node.child? "name").isNone

/-- Read one statement of a file. While a namespace without a body is open, it is
remembered what was around it. -/
def readStatement (read : Reading) (progress : State × Option Bool) (placed : Path × Node) :
    State × Option Bool :=
  if opensNamespace placed.2 then
    let outside := progress.2.getD progress.1.inClass
    (progress.1.within (outside && continuesScope placed.2), some outside)
  else (read placed.1 placed.2 progress.1, progress.2)

/-- Read a whole file. -/
def readProgram (read : Reading) (path : Path) (node : Node) (state : State) : State :=
  let progress := (placedParts path node).foldl (readStatement read) (state, none)
  progress.1.within (progress.2.getD progress.1.inClass)

/-- Read a namespace with a body. -/
def readNamespace (read : Reading) (path : Path) (node : Node) (state : State) : State :=
  readInside read (namespacePath path node) node (state.inClass && continuesScope node) ["body"]
    state

/-- Read a function: it is declared where it stands, unless a class has it. -/
def readFunction (read : Reading) (path : Path) (node : Node) (state : State) : State :=
  readInside read path node false ["parameters", "body"]
    (state.declare path (declaredName node) node)

/-- Read an arrow function: it goes on with the scope around it. -/
def readArrowFunction (read : Reading) (path : Path) (node : Node) (state : State) : State :=
  let bindsSome := node.parameters.any fun parameter => parameter.parameterName != ""
  readInside read path node (state.inClass && !bindsSome) ["parameters", "body"] state

/-- Read the parts of a property declaration. -/
def readProperty (read : Reading) (path : Path) (node : Node) (state : State) : State :=
  node.namedChildren.foldl (fun current element =>
    if element.kind = "property_element" then readChildren read path element current
    else read path element current) state

/-- Read an assignment. -/
def readAssignment (read : Reading) (path : Path) (node : Node) (state : State) : State :=
  (readPart read path node (readPart read path node state "right") "left").bound
    (!(Dictionary.assigned node).isEmpty)

/-- Read an iteration: what is iterated, the variables, the body. -/
def readIteration (read : Reading) (path : Path) (node : Node) (state : State) : State :=
  match node.namedChildren with
  | iterated :: binding :: body =>
      body.foldl (fun current part => read path part current)
        ((read path binding (read path iterated state)).bound (!binding.targets.isEmpty))
  | _ => readChildren read path node state

/-- Read the declaration of a static variable. -/
def readStaticVariable (read : Reading) (path : Path) (node : Node) (state : State) : State :=
  (readPart read path node state "value").bound ((node.child? "name").any Node.isVariable)

/-- Read a node by the rule of its construct. -/
def readNode (read : Reading) (path : Path) (node : Node) (state : State) : State :=
  match node.construct with
  | .program => readProgram read path node state
  | .namespaceDefinition => readNamespace read path node state
  | .functionDefinition => readFunction read path node state
  | .methodDeclaration | .closure => readInside read path node false ["parameters", "body"] state
  | .arrowFunction => readArrowFunction read path node state
  | .classDeclaration => readInside read path node true ["body"] state
  | .propertyDeclaration => readProperty read path node state
  | .globalDeclaration => state.bound (node.namedChildren.any Node.isVariable)
  | .unset => (readChildren read path node state).bound (node.namedChildren.any Node.isVariable)
  | .assignment => readAssignment read path node state
  | .iteration => readIteration read path node state
  | .staticVariable => readStaticVariable read path node state
  | .constantDeclaration | .call | .plain => readChildren read path node state

/-- Read a tree of at most the given height. -/
def read : Nat -> Reading
  | 0, _, _, state => state
  | height + 1, path, node, state => readNode (read height) path node state

/-- Read a file: it starts outside all namespaces. -/
def readFile (state : State) (root : Node) : State :=
  read root.tree.height [] root (state.within false)

/-- Read files one after the other. -/
def readFiles (roots : List Node) : State := roots.foldl readFile ⟨false, []⟩

end Lexical

end PhpTaint.Annotation
