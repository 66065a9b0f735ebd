import Mathlib.Data.List.Nodup
import Mathlib.Data.List.Pairwise
import PhpTaint.Proofs.Syntax.Occurrence

/-!
# Places of distinct nodes

In files in which no node occurs twice, a node has one place: it stands in one of
the files, and under one node of it, unless it is the file itself.
-/

namespace PhpTaint.Syntax

variable {roots : List Node} {root part outer other : Node}

theorem KeysDistinct.nodup (distinct : KeysDistinct roots) : (nodesOf roots).Nodup :=
  List.Nodup.of_map Node.key distinct

/-- A node of a file is the file or stands in one of its children. -/
theorem Node.mem_preorder_iff :
    part ∈ root.preorder ↔ part = root ∨ part ∈ nodesOf root.children := by
  rw [root.preorder_eq_cons, List.mem_cons]
  rfl

/-- A node stands in one of the files. -/
theorem eq_of_mem_preorder (nodup : (nodesOf roots).Nodup) (first : outer ∈ roots)
    (second : other ∈ roots) (inFirst : part ∈ outer.preorder) (inSecond : part ∈ other.preorder) :
    outer = other := by
  have symmetric : Std.Symm (Function.onFun List.Disjoint Node.preorder) :=
    ⟨fun _ _ apart => List.disjoint_symm apart⟩
  by_contra differ
  have apart := (List.nodup_flatMap.1 nodup).2.forall first second differ
  exact apart inFirst inSecond

theorem nodup_nodesOf_children (nodup : (nodesOf roots).Nodup) (member : root ∈ roots) :
    (nodesOf root.children).Nodup := by
  have below := (List.nodup_flatMap.1 nodup).1 root member
  rw [root.preorder_eq_cons] at below
  exact (List.nodup_cons.1 below).2

/-- The children of every node are distinct. -/
theorem nodup_children (nodup : (nodesOf roots).Nodup) (member : outer ∈ nodesOf roots) :
    outer.children.Nodup := by
  obtain ⟨root, listed, below⟩ := List.mem_flatMap.1 member
  induction height : root.tree.height using Nat.strongRecOn generalizing root roots with
  | ind measure inductionHypothesis =>
      have inner := nodup_nodesOf_children nodup listed
      rcases Node.mem_preorder_iff.1 below with rfl | deeper
      · apply (List.nodup_flatMap.1 inner).2.imp
        rintro first second apart rfl
        exact apart first.self_mem_preorder first.self_mem_preorder
      · obtain ⟨child, inside, belowChild⟩ := List.mem_flatMap.1 deeper
        have lower := Node.height_lt_of_mem_children inside
        exact inductionHypothesis _ (height ▸ lower) inner deeper child inside belowChild rfl

/-- A file stands under no node. -/
theorem not_mem_children_of_root (nodup : (nodesOf roots).Nodup) (isFile : root ∈ roots)
    (member : outer ∈ nodesOf roots) : root ∉ outer.children := by
  intro inside
  obtain ⟨other, listed, below⟩ := List.mem_flatMap.1 member
  have inOther := Node.mem_preorder_of_mem_children below inside
  obtain rfl := eq_of_mem_preorder nodup isFile listed root.self_mem_preorder inOther
  have lower := Node.height_lt_of_mem_children inside
  have higher := Node.height_le_of_mem_preorder below
  omega

/-- A node stands under one node only. -/
theorem eq_of_mem_children (nodup : (nodesOf roots).Nodup) (first : outer ∈ nodesOf roots)
    (second : other ∈ nodesOf roots) (inFirst : part ∈ outer.children)
    (inSecond : part ∈ other.children) : outer = other := by
  obtain ⟨root, listed, below⟩ := List.mem_flatMap.1 first
  obtain ⟨_, otherListed, otherBelow⟩ := List.mem_flatMap.1 second
  obtain rfl := eq_of_mem_preorder nodup listed otherListed
    (Node.mem_preorder_of_mem_children below inFirst)
    (Node.mem_preorder_of_mem_children otherBelow inSecond)
  induction height : root.tree.height using Nat.strongRecOn generalizing root roots with
  | ind measure inductionHypothesis =>
      have inner := nodup_nodesOf_children nodup listed
      rcases Node.mem_preorder_iff.1 below with rfl | deeper
      · rcases Node.mem_preorder_iff.1 otherBelow with rfl | otherDeeper
        · rfl
        · exact absurd inSecond (not_mem_children_of_root inner inFirst otherDeeper)
      · rcases Node.mem_preorder_iff.1 otherBelow with rfl | otherDeeper
        · exact absurd inFirst (not_mem_children_of_root inner inSecond deeper)
        · obtain ⟨child, inside, belowChild⟩ := List.mem_flatMap.1 deeper
          obtain ⟨_, otherInside, otherBelowChild⟩ := List.mem_flatMap.1 otherDeeper
          obtain rfl := eq_of_mem_preorder inner inside otherInside
            (Node.mem_preorder_of_mem_children belowChild inFirst)
            (Node.mem_preorder_of_mem_children otherBelowChild inSecond)
          have lower := Node.height_lt_of_mem_children inside
          exact inductionHypothesis _ (height ▸ lower) inner deeper otherDeeper child inside
            belowChild inside otherBelowChild rfl

end PhpTaint.Syntax
