import PhpTaint.Syntax.Kind
import PhpTaint.Syntax.Node

/-!
# Parts of syntax nodes

What a declaration, an assignment or a call consists of, read off its tree. Each
function has an answer for every tree: a missing part is an empty list, an empty
name or no node, and it is left to the caller what that means.
-/

namespace PhpTaint.Syntax

namespace Tree

/-- The part that an element or property access reads from: the labelled object,
or else the first named child. -/
def containerPart? (tree : Tree) : Option Tree :=
  match tree.child? "object" with
  | some base => some base
  | none => tree.namedChildren.head?

theorem mem_children_of_containerPart? {part tree : Tree}
    (found : tree.containerPart? = some part) : part ∈ tree.children := by
  unfold containerPart? at found
  split at found
  · rename_i base labelled
    cases found
    exact mem_children_of_child? labelled
  · exact mem_children_of_mem_namedChildren (List.mem_of_mem_head? found)

/-- The container that a chain of element and property accesses starts from. -/
def containerBase (tree : Tree) : Option Tree :=
  if isContainerKind tree.kind then
    match _found : tree.containerPart? with
    | some part => part.containerBase
    | none => none
  else some tree
termination_by tree.size
decreasing_by exact size_lt_of_mem_children (mem_children_of_containerPart? _found)

mutual

/-- The variables that an assignment to this tree binds: the variable itself,
the container behind an element or property, or those of the nested patterns of
a destructuring. -/
def targets : Tree -> List Tree
  | .node kind named start stop label children =>
      let self := Tree.node kind named start stop label children
      if kind = "variable_name" then [self]
      else if isContainerKind kind then
        match self.containerBase with
        | some base => if base.kind = "variable_name" then [base] else []
        | none => []
      else if kind = "by_ref" || kind = "pair" then targetsOfAll children
      else if kind = "list_literal" || kind = "array_creation_expression" then
        targetsOfElements children
      else []

/-- The variables bound by the named trees of a list. -/
def targetsOfAll : List Tree -> List Tree
  | [] => []
  | tree :: rest => (if tree.named then tree.targets else []) ++ targetsOfAll rest

/-- The variables bound by the last named tree of a list. -/
def targetsOfLast : List Tree -> List Tree
  | [] => []
  | tree :: rest =>
      if tree.named && !rest.any Tree.named then tree.targets else targetsOfLast rest

/-- The variables bound by the elements of a destructuring: a keyed element
binds through its value, which stands last. -/
def targetsOfElements : List Tree -> List Tree
  | [] => []
  | .node kind named start stop label children :: rest =>
      (if named then
        if kind = "array_element_initializer" then targetsOfLast children
        else (Tree.node kind named start stop label children).targets
      else []) ++ targetsOfElements rest

end

/-- The return statements of a body, without those of functions and classes
nested in it. -/
def returns (body : Tree) : List Tree :=
  (walkPruned (fun child => !(Construct.ofKind child.kind).isSeparate) [body]).filter
    fun tree => tree.kind = "return_statement"

end Tree

namespace Node

/-- The construct of the node. -/
def construct (node : Node) : Construct := Construct.ofKind node.kind

/-- The form of the node. -/
def form (node : Node) : Form := Form.ofKind node.kind

/-- Whether the node is a variable with a fixed name. -/
def isVariable (node : Node) : Bool := node.kind = "variable_name"

/-- The name of a variable, with its sigil; empty for any other node. -/
def variableName (node : Node) : String := if node.isVariable then node.text else ""

/-- The parameters of a function, method, closure or arrow function. -/
def parameters (declaration : Node) : List Node :=
  match declaration.child? "parameters" with
  | some list => list.namedChildren.filter fun child => isParameterKind child.kind
  | none => []

/-- The name that a parameter binds; empty when it has none. -/
def parameterName (parameter : Node) : String :=
  match parameter.child? "name" with
  | some name => name.variableName
  | none =>
      match parameter.namedChildren.find? isVariable with
      | some variableNode => variableNode.text
      | none => ""

/-- The names of the parameters, in order. -/
def parameterNames (declaration : Node) : List String := declaration.parameters.map parameterName

/-- The part that an element or property access reads from. -/
def containerPart? (node : Node) : Option Node := node.tree.containerPart?.map node.withTree

/-- The container that a chain of element and property accesses starts from. -/
def containerBase (node : Node) : Option Node := node.tree.containerBase.map node.withTree

/-- The variables that an assignment to the node binds. -/
def targets (node : Node) : List Node := node.tree.targets.map node.withTree

/-- The callee name of a call, empty when it has none. -/
def calleeName (node : Node) : String :=
  let label :=
    match node.form with
    | .call => some "function"
    | .methodCall => some "name"
    | _ => none
  match label.bind node.child? with
  | some callee => callee.text
  | none => ""

/-- The arguments of a call. -/
def arguments (node : Node) : List Node :=
  match node.child? "arguments" with
  | some list => list.namedChildren.filter fun child => child.kind = "argument"
  | none => []

/-- The expression that an argument passes; a node that is not an argument
passes itself. -/
def argumentValue (node : Node) : Option Node :=
  if node.kind = "argument" then node.namedChildren.getLast? else some node

/-- The parameter that a named argument addresses, with its sigil; empty for a
positional argument. -/
def argumentName (node : Node) : String :=
  if node.kind = "argument" && 2 <= node.namedChildren.length then
    match node.child? "name" with
    | some name => "$" ++ name.text
    | none => ""
  else ""

/-- The return statements of a body, without those of functions and classes
nested in it. -/
def returns (body : Node) : List Node := body.tree.returns.map body.withTree

end Node

/-- The contents of a quoted literal: the text without its quotes, when it
stands in a pair of equal ones. -/
def unquote (text : String) : String :=
  let chars := text.toList
  match chars.head?, chars.getLast? with
  | some first, some last =>
      if 2 <= chars.length && (first == '\'' || first == '"') && last == first then
        String.ofList (chars.drop 1).dropLast
      else text
  | _, _ => text

end PhpTaint.Syntax
