import PhpTaint.Annotation.Stack

/-!
# Annotation of programs

One pass over a syntax tree records for every visited node the scope in which it
stands. Branches and loop bodies are walked in source order as if they always
ran. The value of an assignment is visited before its target, and the new
binding is visible only to what follows.

Each construct has its own visiting rule. The rules are written against an
arbitrary visitor for the parts, and `visit` ties the knot: the parts of a tree
are lower than the tree, so its height bounds the nesting.
-/

namespace PhpTaint.Annotation

open Scopes Syntax

/-- Visit the named children in order. -/
def visitChildren (visit : Node -> Annotating Unit) (node : Node) : Annotating Unit :=
  node.namedChildren.forM visit

/-- Visit a labelled part, if the node has it. -/
def visitPart (visit : Node -> Annotating Unit) (node : Node) (label : String) : Annotating Unit :=
  match node.child? label with
  | some part => visit part
  | none => pure ()

/-- Stamp a node with a scope and visit some of its parts inside that scope. -/
def visitInside (visit : Node -> Annotating Unit) (node : Node) (scope : ScopeId)
    (labels : List String) : Annotating Unit := do
  stamp node scope
  pushScope scope
  labels.forM (visitPart visit node)
  let _ ← popScope
  pure ()

/-- The text of the name of a declaration, empty when it has none. -/
def declaredName (node : Node) : String :=
  match node.child? "name" with
  | some name => name.text
  | none => ""

/-- Enter the scope of a namespace definition; without a name it is the current
scope. -/
def enterNamespaceOf (node : Node) : Annotating Unit := do
  let here ← currentScope
  let scope ← match node.child? "name" with
    | some name => onRegistry (declareNamespace here name.text)
    | none => pure here
  stamp node scope
  pushScope scope

/-- Leave a namespace and record where its top-level code ended. -/
def leaveNamespace : Annotating Unit := do
  let scope ← popScope
  endProgram scope

/-- Whether a node is a namespace definition that covers the statements after
it. -/
def opensNamespace (node : Node) : Bool :=
  node.construct = .namespaceDefinition && (node.child? "body").isNone

/-- Visit one top-level statement; the result says whether a namespace without a
body is open afterwards. -/
def visitStatement (visit : Node -> Annotating Unit) (namespaceOpen : Bool) (statement : Node) :
    Annotating Bool := do
  if opensNamespace statement then
    if namespaceOpen then leaveNamespace
    enterNamespaceOf statement
    return true
  else
    visit statement
    return namespaceOpen

/-- Visit a whole file. -/
def visitProgram (visit : Node -> Annotating Unit) (node : Node) : Annotating Unit := do
  stampHere node
  let namespaceOpen ← node.namedChildren.foldlM (visitStatement visit) false
  if namespaceOpen then leaveNamespace

/-- Visit a namespace definition that is not a top-level statement without a
body: it covers its body and nothing else. -/
def visitNamespace (visit : Node -> Annotating Unit) (node : Node) : Annotating Unit := do
  enterNamespaceOf node
  visitPart visit node "body"
  leaveNamespace

/-- Bind the parameters of a declaration on entry to its scope. -/
def bindParameters (scope : ScopeId) (declaration : Node) : Annotating Unit :=
  declaration.parameters.zipIdx.forM fun (parameter, index) => do
    let name := parameter.parameterName
    if name != "" then
      onRegistry (bindOnEntry scope name (.parameter name parameter (Int.ofNat index)))

/-- Visit a function definition. -/
def visitFunction (visit : Node -> Annotating Unit) (node : Node) : Annotating Unit := do
  let here ← currentScope
  let scope ← onRegistry (declareFunction here (declaredName node) node)
  bindParameters scope node
  visitInside visit node scope ["parameters", "body"]

/-- Whether a scope is a class body. -/
def isClassScope (scope : ScopeId) : Annotating Bool := do
  let state ← get
  return ((state.registry.scope? scope).bind fun found => found.body.members?).isSome

/-- Visit a method declaration: a class declares it, and its instance is bound
on entry. Outside a class it belongs to an anonymous one and is not declared. -/
def visitMethod (visit : Node -> Annotating Unit) (node : Node) : Annotating Unit := do
  let here ← currentScope
  let name := declaredName node
  let scope ←
    if ← isClassScope here then onRegistry (declareFunction here name node)
    else onRegistry (openFunction name (some here))
  bindParameters scope node
  onRegistry (bindOnEntry scope "$this" (.parameter "$this" node (-1)))
  visitInside visit node scope ["parameters", "body"]

/-- Bind one captured variable on entry to a closure, if it is bound outside. -/
def captureVariable (outer scope : ScopeId) (captured : Node) : Annotating Unit := do
  stamp captured outer
  let name := captured.text
  let state ← get
  match state.registry.resolveVariable outer name with
  | .ok binding => onRegistry (bindOnEntry scope name binding)
  | .error _ =>
      remark ("Closure captures unbound variable " ++ name ++ " at line " ++
        toString captured.line)

/-- The variables that a closure captures. -/
def capturedVariables (node : Node) : List Node :=
  (node.namedChildren.filter fun child => child.kind = "anonymous_function_use_clause").flatMap
    fun clause => clause.namedChildren.flatMap Node.targets

/-- Visit a closure. -/
def visitClosure (visit : Node -> Annotating Unit) (node : Node) : Annotating Unit := do
  let outer ← currentScope
  let scope ← onRegistry (openFunction "\x7bclosure\x7d" (some outer))
  bindParameters scope node
  (capturedVariables node).forM (captureVariable outer scope)
  visitInside visit node scope ["parameters", "body"]

/-- Bind one parameter of an arrow function in a child of a scope. -/
def bindArrowParameter (scope : ScopeId) (entry : Node × Nat) : Annotating ScopeId := do
  let (parameter, index) := entry
  let name := parameter.parameterName
  if name != "" then
    onRegistry (bindVariable scope name (.parameter name parameter (Int.ofNat index)))
  else return scope

/-- Visit an arrow function: it sees the enclosing scope. -/
def visitArrowFunction (visit : Node -> Annotating Unit) (node : Node) : Annotating Unit := do
  let here ← currentScope
  let scope ← node.parameters.zipIdx.foldlM bindArrowParameter here
  visitInside visit node scope ["parameters", "body"]

/-- Visit a class, interface, trait or enumeration. -/
def visitClass (visit : Node -> Annotating Unit) (node : Node) : Annotating Unit := do
  let here ← currentScope
  let scope ← onRegistry (declareClass here (declaredName node) node)
  visitInside visit node scope ["body"]

/-- Visit a part of a property element; a variable declares a property. -/
def visitPropertyPart (visit : Node -> Annotating Unit) (owner : ScopeId) (element part : Node) :
    Annotating Unit := do
  if part.isVariable then
    if ← isClassScope owner then onRegistry (declareProperty owner part.text element)
  visit part

/-- Visit an element of a property declaration. -/
def visitPropertyElement (visit : Node -> Annotating Unit) (owner : ScopeId) (element : Node) :
    Annotating Unit := do
  if element.kind = "property_element" then
    stampHere element
    element.namedChildren.forM (visitPropertyPart visit owner element)
  else visit element

/-- Visit a property declaration. -/
def visitProperty (visit : Node -> Annotating Unit) (node : Node) : Annotating Unit := do
  let owner ← currentScope
  stampHere node
  node.namedChildren.forM (visitPropertyElement visit owner)

/-- Visit an element of a constant declaration; a leading name declares a
constant. -/
def visitConstantElement (visit : Node -> Annotating Unit) (element : Node) : Annotating Unit := do
  if element.kind = "const_element" then
    match element.namedChildren.head? with
    | some first =>
        if first.kind = "name" then
          let here ← currentScope
          onRegistry (declareConstant here first.text element)
    | none => pure ()
  visit element

/-- Visit a constant declaration. -/
def visitConstants (visit : Node -> Annotating Unit) (node : Node) : Annotating Unit := do
  stampHere node
  node.namedChildren.forM (visitConstantElement visit)

/-- Bind one name of a global declaration in a child of a scope. -/
def bindGlobalName (node : Node) (scope : ScopeId) (child : Node) : Annotating ScopeId := do
  stamp child scope
  if child.isVariable then onRegistry (bindByReference scope child.text node)
  else
    remark ("Dynamic global declaration at line " ++ toString child.line ++ " ignored")
    return scope

/-- Visit a global declaration. -/
def visitGlobal (node : Node) : Annotating Unit := do
  let here ← currentScope
  let scope ← node.namedChildren.foldlM (bindGlobalName node) here
  replaceScope scope
  stamp node scope

/-- End the binding of one variable in a child of a scope. -/
def unbindName (scope : ScopeId) (child : Node) : Annotating ScopeId :=
  if child.isVariable then onRegistry (unbindVariable scope child.text) else return scope

/-- Visit an unset statement. -/
def visitUnset (visit : Node -> Annotating Unit) (node : Node) : Annotating Unit := do
  visitChildren visit node
  let here ← currentScope
  let scope ← node.namedChildren.foldlM unbindName here
  replaceScope scope
  stamp node scope

/-- Bind the targets of an assignment one after the other. -/
def bindTargets (node : Node) (targets : List Node) (scope : ScopeId) : Annotating ScopeId :=
  targets.foldlM (fun current target => onRegistry (bindByValue current target.text node)) scope

/-- Visit an assignment. -/
def visitAssignment (visit : Node -> Annotating Unit) (node : Node) : Annotating Unit := do
  visitPart visit node "right"
  visitPart visit node "left"
  let here ← currentScope
  let left := node.child? "left"
  let targets := match left with
    | some target => target.targets
    | none => []
  match left with
  | some target =>
      if targets.isEmpty then
        remark ("Assignment to " ++ target.kind ++ " at line " ++ toString node.line ++
          " binds no variable")
  | none => pure ()
  let scope ← bindTargets node targets here
  replaceScope scope
  stamp node scope

/-- Visit an iteration: what is iterated, the variables it binds, the body. -/
def visitIteration (visit : Node -> Annotating Unit) (node : Node) : Annotating Unit := do
  stampHere node
  match node.namedChildren with
  | iterated :: binding :: body =>
      visit iterated
      visit binding
      let here ← currentScope
      let scope ← bindTargets node binding.targets here
      replaceScope scope
      body.forM visit
  | _ => visitChildren visit node

/-- Visit the declaration of a static variable. -/
def visitStaticVariable (visit : Node -> Annotating Unit) (node : Node) : Annotating Unit := do
  visitPart visit node "value"
  let here ← currentScope
  let scope ← match node.child? "name" with
    | some name =>
        if name.isVariable then do
          stamp name here
          let bound ← onRegistry (bindByValue here name.text node)
          replaceScope bound
          pure bound
        else pure here
    | none => pure here
  stamp node scope

/-- Whether a call defines a global constant by its name. -/
def definesConstant (node : Node) : Bool :=
  Text.lower (Text.dropLeading '\\' node.calleeName) = "define"

/-- The literal that names the constant of a defining call. -/
def definedConstant? (node : Node) : Option Node :=
  match node.arguments.head? with
  | some first =>
      match first.namedChildren.getLast? with
      | some literal =>
          if literal.kind = "string" || literal.kind = "encapsed_string" then some literal else none
      | none => none
  | none => none

/-- Visit a function call. -/
def visitCall (visit : Node -> Annotating Unit) (node : Node) : Annotating Unit := do
  stampHere node
  visitChildren visit node
  if definesConstant node then
    match definedConstant? node with
    | some literal =>
        let state ← get
        onRegistry (declareConstant state.globalScope (unquote literal.text) node)
    | none => pure ()

/-- Visit a node without an effect of its own. -/
def visitPlain (visit : Node -> Annotating Unit) (node : Node) : Annotating Unit := do
  if !isFamiliarKind node.kind then
    remark ("Unknown node type: " ++ node.kind ++ " at line " ++ toString node.line ++ ", ignored.")
  stampHere node
  visitChildren visit node

/-- Visit a node by the rule of its construct, with `visit` for its parts. -/
def visitNode (visit : Node -> Annotating Unit) (node : Node) : Annotating Unit :=
  match node.construct with
  | .program => visitProgram visit node
  | .namespaceDefinition => visitNamespace visit node
  | .functionDefinition => visitFunction visit node
  | .methodDeclaration => visitMethod visit node
  | .closure => visitClosure visit node
  | .arrowFunction => visitArrowFunction visit node
  | .classDeclaration => visitClass visit node
  | .propertyDeclaration => visitProperty visit node
  | .constantDeclaration => visitConstants visit node
  | .globalDeclaration => visitGlobal node
  | .unset => visitUnset visit node
  | .assignment => visitAssignment visit node
  | .iteration => visitIteration visit node
  | .staticVariable => visitStaticVariable visit node
  | .call => visitCall visit node
  | .plain => visitPlain visit node

/-- Visit a tree of at most the given height. -/
def visit : Nat -> Node -> Annotating Unit
  | 0, _ => pure ()
  | height + 1, node => visitNode (visit height) node

/-- Annotate a file and return the scope in which its top-level code ended. -/
def annotateProgram (root : Node) : Annotating ScopeId := do
  modify fun state => { state with stack := [state.globalScope] }
  visit root.tree.height root
  let state ← get
  match state.stack with
  | [scope] =>
      endProgram scope
      return scope
  | scopes => throw (.unbalancedScopes (scopes.reverse.map state.registry.describe))

end PhpTaint.Annotation
