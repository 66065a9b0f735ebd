import Mathlib.Logic.Relation
import PhpTaint.Annotation.Visit
import PhpTaint.Proofs.Syntax.Occurrence

/-!
# Where annotation goes

Annotation goes on from a node to some of its parts: a declaration is followed into
its parameters and body, an assignment into its two sides, the declaration of a
static variable into the value, a global declaration into nothing. `walkedNodes` are
the nodes that are come to in this way from some files.
-/

namespace PhpTaint.Annotation

open Syntax

/-- The parts of a node that annotation goes on to. -/
def walkedParts (node : Node) : List Node :=
  match node.construct with
  | .namespaceDefinition | .classDeclaration => (node.child? "body").toList
  | .functionDefinition | .methodDeclaration | .closure | .arrowFunction =>
      (node.child? "parameters").toList ++ (node.child? "body").toList
  | .assignment => (node.child? "right").toList ++ (node.child? "left").toList
  | .staticVariable => (node.child? "value").toList
  | .globalDeclaration => []
  | _ => node.namedChildren

/-- Whether annotation goes on to all named children of a node. -/
def walksAll (node : Node) : Bool :=
  match node.construct with
  | .program | .propertyDeclaration | .constantDeclaration | .unset | .iteration | .call
  | .plain => true
  | _ => false

/-- Where all children are walked they are the walked parts. -/
theorem walkedParts_of_walksAll {node : Node} (all : walksAll node = true) :
    walkedParts node = node.namedChildren := by
  unfold walksAll at all
  unfold walkedParts
  cases construct : node.construct <;> rw [construct] at all <;> first | rfl | cases all

/-- A walked part is a child. -/
theorem mem_children_of_mem_walkedParts {node part : Node} (walked : part ∈ walkedParts node) :
    part ∈ node.children := by
  have labelled : forall label, part ∈ (node.child? label).toList -> part ∈ node.children :=
    fun label member => Node.mem_children_of_child? (Option.mem_toList.1 member)
  unfold walkedParts at walked
  split at walked
  · exact labelled _ walked
  · exact labelled _ walked
  all_goals
    first
    | exact (List.mem_append.1 walked).elim (labelled _) (labelled _)
    | exact labelled _ walked
    | exact Node.mem_children_of_mem_namedChildren walked
    | cases walked

/-- The nodes that annotation comes to from a node, in a tree of at most the given
height. -/
def walkedFrom : Nat -> Node -> List Node
  | 0, _ => []
  | height + 1, node => node :: (walkedParts node).flatMap (walkedFrom height)

/-- The nodes that annotation comes to in some files. -/
def walkedNodes (roots : List Node) : List Node :=
  roots.flatMap fun root => walkedFrom root.tree.height root

/-- Annotation goes on from one node to another one, in any number of steps. -/
abbrev Walks (start node : Node) : Prop :=
  Relation.ReflTransGen (fun outer inner => inner ∈ walkedParts outer) start node

/-- The walk from a node reaches the same nodes from its height on. -/
theorem mem_walkedFrom_iff {height : Nat} {start node : Node}
    (bound : start.tree.height <= height) : node ∈ walkedFrom height start ↔ Walks start node := by
  induction height generalizing start with
  | zero =>
      have positive := start.tree.height_pos
      omega
  | succ height inductionHypothesis =>
      have lower : forall part, part ∈ walkedParts start -> part.tree.height <= height := by
        intro part walked
        have below := Node.height_lt_of_mem_children (mem_children_of_mem_walkedParts walked)
        omega
      rw [walkedFrom, List.mem_cons, List.mem_flatMap]
      constructor
      · rintro (rfl | ⟨part, walked, inner⟩)
        · exact .refl
        · exact .head walked ((inductionHypothesis (lower part walked)).1 inner)
      · intro walks
        rcases Relation.ReflTransGen.cases_head walks with rfl | ⟨part, walked, rest⟩
        · exact Or.inl rfl
        · exact Or.inr ⟨part, walked, (inductionHypothesis (lower part walked)).2 rest⟩

section Nodes

variable {roots : List Node} {node part : Node}

/-- A node is walked if the walk from a root reaches it. -/
theorem mem_walkedNodes_iff : node ∈ walkedNodes roots ↔ ∃ root ∈ roots, Walks root node := by
  rw [walkedNodes, List.mem_flatMap]
  constructor
  · rintro ⟨root, listed, member⟩
    exact ⟨root, listed, (mem_walkedFrom_iff (Nat.le_refl _)).1 member⟩
  · rintro ⟨root, listed, walks⟩
    exact ⟨root, listed, (mem_walkedFrom_iff (Nat.le_refl _)).2 walks⟩

/-- The roots are walked. -/
theorem mem_walkedNodes_of_root (listed : node ∈ roots) : node ∈ walkedNodes roots :=
  mem_walkedNodes_iff.2 ⟨node, listed, .refl⟩

/-- The walked parts of a walked node are walked. -/
theorem mem_walkedNodes_of_part (member : node ∈ walkedNodes roots)
    (walked : part ∈ walkedParts node) : part ∈ walkedNodes roots := by
  obtain ⟨root, listed, walks⟩ := mem_walkedNodes_iff.1 member
  exact mem_walkedNodes_iff.2 ⟨root, listed, walks.tail walked⟩

/-- A walked node is a node of the files. -/
theorem mem_nodesOf_of_mem_walkedNodes (member : node ∈ walkedNodes roots) :
    node ∈ nodesOf roots := by
  obtain ⟨root, listed, walks⟩ := mem_walkedNodes_iff.1 member
  induction walks with
  | refl => exact mem_nodesOf_of_root listed
  | tail before walked inductionHypothesis =>
      exact mem_nodesOf_of_mem_children
        (inductionHypothesis (mem_walkedNodes_iff.2 ⟨root, listed, before⟩))
        (mem_children_of_mem_walkedParts walked)

end Nodes

end PhpTaint.Annotation
