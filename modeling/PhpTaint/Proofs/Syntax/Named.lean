import Mathlib.Logic.Relation
import PhpTaint.Proofs.Syntax.Occurrence

/-!
# Named nodes

A tree is read by its named children, an expression also by its labelled parts.
A grammar makes the labelled parts of expressions named nodes, so that reading
the one way meets everything that is read the other way. `Grammatical` states
this of files, for the labels that expressions use.
-/

namespace PhpTaint.Syntax

/-- The labels of the parts of expressions. -/
def partLabels : List String := ["object", "arguments", "body", "condition", "alternative", "value"]

/-- Whether the labelled parts of an expression are named nodes. -/
def Node.partsNamed (node : Node) : Bool :=
  partLabels.all fun label => (node.tree.child? label).all Tree.named

/-- The labelled parts of all expressions in some files are named nodes. -/
def Grammatical (roots : List Node) : Prop :=
  forall node, node ∈ nodesOf roots -> node.partsNamed = true

/-- A node that is reached from another one by going to named children. -/
def Node.Beneath (part node : Node) : Prop :=
  Relation.ReflTransGen (fun outer inner => inner ∈ Node.namedChildren outer) node part

namespace Node

variable {part node : Node}

/-- A labelled part of a node whose parts are named is a named child. -/
theorem mem_namedChildren_of_child? (named : node.partsNamed = true) {label : String}
    (listed : label ∈ partLabels) (found : node.child? label = some part) :
    part ∈ node.namedChildren := by
  obtain ⟨tree, inside, rfl⟩ := Option.map_eq_some_iff.1 found
  have isNamed := List.all_eq_true.1 named label listed
  rw [inside] at isNamed
  exact List.mem_map.2 ⟨tree,
    List.mem_filter.2 ⟨Tree.mem_children_of_child? inside, isNamed⟩, rfl⟩

/-- The part of a container whose parts are named is a named child. -/
theorem mem_namedChildren_of_containerPart? (named : node.partsNamed = true)
    (found : node.containerPart? = some part) : part ∈ node.namedChildren := by
  obtain ⟨tree, inside, rfl⟩ := Option.map_eq_some_iff.1 found
  unfold Tree.containerPart? at inside
  split at inside
  · rename_i labelled
    cases inside
    have isPart : "object" ∈ partLabels := List.mem_cons_self ..
    exact mem_namedChildren_of_child? named isPart
      (Option.map_eq_some_iff.2 ⟨tree, labelled, rfl⟩)
  · exact List.mem_map.2 ⟨tree, List.mem_of_mem_head? inside, rfl⟩

namespace Beneath

theorem refl (node : Node) : node.Beneath node := Relation.ReflTransGen.refl

/-- A named child lies beneath its parent. -/
theorem of_mem_namedChildren (member : part ∈ node.namedChildren) : part.Beneath node :=
  Relation.ReflTransGen.single member

/-- What lies beneath a part lies beneath the whole. -/
theorem trans {middle : Node} (inner : part.Beneath middle) (outer : middle.Beneath node) :
    part.Beneath node :=
  Relation.ReflTransGen.trans outer inner

/-- A node is the one it stands beneath or stands beneath a named child of it. -/
theorem cases_child (beneath : part.Beneath node) :
    part = node ∨ ∃ child ∈ node.namedChildren, part.Beneath child := by
  rcases Relation.ReflTransGen.cases_head beneath with rfl | ⟨child, member, rest⟩
  · exact Or.inl rfl
  · exact Or.inr ⟨child, member, rest⟩

/-- What lies beneath a node occurs in it. -/
theorem mem_preorder (beneath : part.Beneath node) : part ∈ node.preorder := by
  induction beneath with
  | refl => exact node.self_mem_preorder
  | tail _ member inductionHypothesis =>
      exact mem_preorder_of_mem_children inductionHypothesis
        (mem_children_of_mem_namedChildren member)

end Beneath

end Node

end PhpTaint.Syntax
