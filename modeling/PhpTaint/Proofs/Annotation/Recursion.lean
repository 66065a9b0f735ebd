import PhpTaint.Annotation.Visit
import PhpTaint.Proofs.Syntax.Occurrence

/-!
# Annotation without a bound

Annotation descends into a tree with a bound for its height. A visiting rule visits
lower trees only, so what it does is settled by what its visitor does on those:
`visitNode_congr`, with one lemma for each rule. Hence a bound that is not below the
height of a tree does not show, and `visit_height` states annotation as the recursion
that it is.
-/

namespace PhpTaint.Annotation

open Scopes Syntax

section Passes

variable {α β : Type} {items : List α}

/-- Steps that are the same on the entries of a list go through it in the same way. -/
theorem forM_congr {left right : α -> Annotating Unit}
    (same : forall item, item ∈ items -> left item = right item) :
    items.forM left = items.forM right := by
  induction items with
  | nil => rfl
  | cons item rest inductionHypothesis =>
      have others := inductionHypothesis fun other member => same other (List.mem_cons_of_mem _ member)
      show (left item >>= fun _ => rest.forM left) = (right item >>= fun _ => rest.forM right)
      rw [same item (List.mem_cons_self ..), others]

/-- Steps that are the same on the entries of a list fold it in the same way. -/
theorem foldlM_congr {left right : β -> α -> Annotating β}
    (same : forall item, item ∈ items -> forall value, left value item = right value item)
    (start : β) : items.foldlM left start = items.foldlM right start := by
  induction items generalizing start with
  | nil => rfl
  | cons item rest inductionHypothesis =>
      have others := inductionHypothesis fun other member => same other (List.mem_cons_of_mem _ member)
      rw [List.foldlM_cons, List.foldlM_cons, same item (List.mem_cons_self ..)]
      exact congrArg _ (funext others)

end Passes

/-- Two visitors do the same on every tree that is lower than the tree of a node. -/
def AgreeBelow (visit other : Node -> Annotating Unit) (node : Node) : Prop :=
  forall part, part.tree.height < node.tree.height -> visit part = other part

section Rules

variable {visit other : Node -> Annotating Unit} {node : Node}

namespace AgreeBelow

/-- Visits that agree below a node agree on its children. -/
theorem at_child (agree : AgreeBelow visit other node) {part : Node}
    (member : part ∈ node.namedChildren) : visit part = other part :=
  agree part (Node.height_lt_of_mem_children (Node.mem_children_of_mem_namedChildren member))

/-- Visits that agree below a node agree below its children. -/
theorem of_child (agree : AgreeBelow visit other node) {part : Node}
    (member : part ∈ node.namedChildren) : AgreeBelow visit other part := by
  intro inner lower
  have below := Node.height_lt_of_mem_children (Node.mem_children_of_mem_namedChildren member)
  exact agree inner (Nat.lt_trans lower below)

theorem visitChildren (agree : AgreeBelow visit other node) :
    Annotation.visitChildren visit node = Annotation.visitChildren other node :=
  forM_congr fun _ => agree.at_child

/-- A labelled part lies below the node. -/
theorem visitPart (agree : AgreeBelow visit other node) (label : String) :
    Annotation.visitPart visit node label = Annotation.visitPart other node label := by
  unfold Annotation.visitPart
  cases found : node.child? label with
  | none => rfl
  | some part => exact agree part (Node.height_lt_of_mem_children (Node.mem_children_of_child? found))

/-- The parts of a body lie below the node. -/
theorem visitInside (agree : AgreeBelow visit other node) (scope : ScopeId) (labels : List String) :
    Annotation.visitInside visit node scope labels =
      Annotation.visitInside other node scope labels := by
  unfold Annotation.visitInside
  rw [forM_congr fun label _ => agree.visitPart label]

/-- The statements of a program lie below it. -/
theorem visitProgram (agree : AgreeBelow visit other node) :
    Annotation.visitProgram visit node = Annotation.visitProgram other node := by
  have statements : forall start, node.namedChildren.foldlM (visitStatement visit) start =
      node.namedChildren.foldlM (visitStatement other) start := by
    refine foldlM_congr fun statement member isOpen => ?_
    unfold visitStatement
    rw [agree.at_child member]
  unfold Annotation.visitProgram
  rw [statements]

/-- The elements of a property declaration, and their children, lie below it. -/
theorem visitProperty (agree : AgreeBelow visit other node) :
    Annotation.visitProperty visit node = Annotation.visitProperty other node := by
  have elements : forall owner, node.namedChildren.forM (visitPropertyElement visit owner) =
      node.namedChildren.forM (visitPropertyElement other owner) := by
    intro owner
    refine forM_congr fun element member => ?_
    have parts : element.namedChildren.forM (visitPropertyPart visit owner element) =
        element.namedChildren.forM (visitPropertyPart other owner element) := by
      refine forM_congr fun part inner => ?_
      unfold visitPropertyPart
      rw [(agree.of_child member).at_child inner]
    unfold visitPropertyElement
    rw [parts, agree.at_child member]
  unfold Annotation.visitProperty
  simp only [elements]

/-- The elements of a constant declaration, and their children, lie below it. -/
theorem visitConstants (agree : AgreeBelow visit other node) :
    Annotation.visitConstants visit node = Annotation.visitConstants other node := by
  have elements : node.namedChildren.forM (visitConstantElement visit) =
      node.namedChildren.forM (visitConstantElement other) := by
    refine forM_congr fun element member => ?_
    unfold visitConstantElement
    rw [agree.at_child member]
  unfold Annotation.visitConstants
  rw [elements]

/-- All parts of a loop lie below it. -/
theorem visitIteration (agree : AgreeBelow visit other node) :
    Annotation.visitIteration visit node = Annotation.visitIteration other node := by
  have children := agree.visitChildren
  unfold Annotation.visitIteration
  split
  · rename_i iterated binding body listed
    have here : forall part, part ∈ iterated :: binding :: body -> visit part = other part :=
      fun part member => agree.at_child (listed ▸ member)
    rw [here iterated (by simp), here binding (by simp),
      forM_congr fun part member => here part (by simp [member])]
  · rw [children]

end AgreeBelow

/-- What a visitor does to higher trees does not show in the rule of a node. -/
theorem visitNode_congr (agree : AgreeBelow visit other node) :
    visitNode visit node = visitNode other node := by
  have inside := agree.visitInside
  have part := agree.visitPart
  have children := agree.visitChildren
  unfold visitNode
  cases node.construct with
  | program => exact agree.visitProgram
  | namespaceDefinition => simp only [visitNamespace, part]
  | functionDefinition => simp only [visitFunction, inside]
  | methodDeclaration => simp only [visitMethod, inside]
  | closure => simp only [visitClosure, inside]
  | arrowFunction => simp only [visitArrowFunction, inside]
  | classDeclaration => simp only [visitClass, inside]
  | propertyDeclaration => exact agree.visitProperty
  | constantDeclaration => exact agree.visitConstants
  | globalDeclaration => rfl
  | unset => simp only [visitUnset, children]
  | assignment => simp only [visitAssignment, part]
  | iteration => exact agree.visitIteration
  | staticVariable => simp only [visitStaticVariable, part]
  | call => simp only [visitCall, children]
  | plain => simp only [visitPlain, children]

end Rules

/-- A bound that is not below the height of a tree does not show. -/
theorem visit_eq_of_height_le {node : Node} {bound other : Nat}
    (enough : node.tree.height <= bound) (alsoEnough : node.tree.height <= other) :
    visit bound node = visit other node := by
  have positive := node.tree.height_pos
  induction bound generalizing node other with
  | zero => omega
  | succ bound inductionHypothesis =>
      cases other with
      | zero => omega
      | succ other =>
          refine visitNode_congr fun part lower => ?_
          exact inductionHypothesis (by omega) (by omega) part.tree.height_pos

/-- Annotation visits a node by the rule of its construct, and its parts likewise. -/
theorem visit_height (node : Node) :
    visit node.tree.height node = visitNode (fun part => visit part.tree.height part) node := by
  have positive := node.tree.height_pos
  obtain ⟨below, isHeight⟩ : ∃ below, node.tree.height = below + 1 :=
    ⟨node.tree.height - 1, by omega⟩
  rw [isHeight]
  exact visitNode_congr fun part lower => visit_eq_of_height_le (by omega) (Nat.le_refl _)

end PhpTaint.Annotation
