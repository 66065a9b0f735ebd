import PhpTaint.Syntax.Shape

/-!
# Occurrences of nodes in files

`nodesOf` lists the nodes of some files. The list is closed under the parts of a
node, and no node in it is higher than the highest file. `Node.definedNames` are
the variables that a node gives a value to.
-/

namespace PhpTaint.Syntax

namespace Tree

/-- The preorder of a forest is that of its trees, one after the other. -/
theorem preorderAll_eq_flatMap (forest : List Tree) :
    preorderAll forest = forest.flatMap preorder := by
  induction forest with
  | nil => rfl
  | cons tree rest inductionHypothesis =>
      rw [preorderAll, inductionHypothesis, List.flatMap_cons]

/-- A tree of the preorder is the root or stands below a child. -/
theorem mem_preorder {tree root : Tree} :
    tree ∈ root.preorder ↔ tree = root ∨ ∃ child ∈ root.children, tree ∈ child.preorder := by
  cases root with
  | node kind named start stop label children =>
      rw [preorder, preorderAll_eq_flatMap, List.mem_cons, List.mem_flatMap]
      rfl

theorem self_mem_preorder (tree : Tree) : tree ∈ tree.preorder := mem_preorder.2 (Or.inl rfl)

/-- The preorder holds the children of what it holds. -/
theorem mem_preorder_of_mem_children {root tree child : Tree} (member : tree ∈ root.preorder)
    (part : child ∈ tree.children) : child ∈ root.preorder := by
  induction size : root.size using Nat.strongRecOn generalizing root with
  | ind measure inductionHypothesis =>
      rcases mem_preorder.1 member with equal | ⟨branch, branchMember, below⟩
      · subst equal
        exact mem_preorder.2 (Or.inr ⟨child, part, self_mem_preorder child⟩)
      · have smaller : branch.size < measure := size ▸ size_lt_of_mem_children branchMember
        have inner := inductionHypothesis _ smaller below rfl
        exact mem_preorder.2 (Or.inr ⟨branch, branchMember, inner⟩)

theorem height_pos (tree : Tree) : 0 < tree.height := by
  cases tree
  simp only [height]
  omega

/-- Nothing in a tree is higher than the tree. -/
theorem height_le_of_mem_preorder {root tree : Tree} (member : tree ∈ root.preorder) :
    tree.height <= root.height := by
  induction size : root.size using Nat.strongRecOn generalizing root with
  | ind measure inductionHypothesis =>
      rcases mem_preorder.1 member with equal | ⟨branch, branchMember, below⟩
      · subst equal
        exact Nat.le_refl _
      · have smaller : branch.size < measure := size ▸ size_lt_of_mem_children branchMember
        have inner := inductionHypothesis _ smaller below rfl
        have outer := height_lt_of_mem_children branchMember
        omega

/-- What occurs in a part occurs in the whole. -/
theorem mem_preorder_trans {root middle tree : Tree} (inner : tree ∈ middle.preorder)
    (outer : middle ∈ root.preorder) : tree ∈ root.preorder := by
  induction size : middle.size using Nat.strongRecOn generalizing middle with
  | ind measure inductionHypothesis =>
      rcases mem_preorder.1 inner with equal | ⟨branch, branchMember, below⟩
      · subst equal
        exact outer
      · have smaller : branch.size < measure := size ▸ size_lt_of_mem_children branchMember
        exact inductionHypothesis _ smaller below
          (mem_preorder_of_mem_children outer branchMember) rfl

/-- The container that a chain of accesses starts from stands in the chain. -/
theorem mem_preorder_of_containerBase {tree base : Tree} (found : tree.containerBase = some base) :
    base ∈ tree.preorder := by
  induction size : tree.size using Nat.strongRecOn generalizing tree with
  | ind measure inductionHypothesis =>
      rw [containerBase] at found
      split at found
      · split at found
        · rename_i part chosen
          have inside := mem_children_of_containerPart? chosen
          have below := inductionHypothesis _ (size ▸ size_lt_of_mem_children inside) found rfl
          exact mem_preorder.2 (Or.inr ⟨part, inside, below⟩)
        · cases found
      · cases found
        exact self_mem_preorder _

/-- A walk sees nothing but what stands in the trees it starts from. -/
theorem mem_preorder_of_mem_walkPruned {enter : Tree -> Bool} {stack : List Tree} {tree : Tree}
    (member : tree ∈ walkPruned enter stack) : ∃ root ∈ stack, tree ∈ root.preorder := by
  induction stack using walkPruned.induct enter with
  | case1 =>
      rw [walkPruned] at member
      cases member
  | case2 first pending inductionHypothesis =>
      rw [walkPruned] at member
      rcases List.mem_cons.1 member with rfl | later
      · exact ⟨tree, List.mem_cons_self .., self_mem_preorder tree⟩
      · obtain ⟨root, rootMember, below⟩ := inductionHypothesis later
        rcases List.mem_append.1 rootMember with child | waiting
        · have inside := mem_children_of_mem_namedChildren (List.mem_filter.1 child).1
          exact ⟨first, List.mem_cons_self .., mem_preorder.2 (Or.inr ⟨root, inside, below⟩)⟩
        · exact ⟨root, List.mem_cons_of_mem _ waiting, below⟩

end Tree

namespace Node

/-- A named child is a child. -/
theorem mem_children_of_mem_namedChildren {part node : Node} (member : part ∈ node.namedChildren) :
    part ∈ node.children := by
  obtain ⟨tree, inside, rfl⟩ := List.mem_map.1 member
  exact List.mem_map.2 ⟨tree, Tree.mem_children_of_mem_namedChildren inside, rfl⟩

/-- A labelled child is a child. -/
theorem mem_children_of_child? {part node : Node} {label : String}
    (found : node.child? label = some part) : part ∈ node.children := by
  obtain ⟨tree, inside, rfl⟩ := Option.map_eq_some_iff.1 found
  exact List.mem_map.2 ⟨tree, Tree.mem_children_of_child? inside, rfl⟩

/-- The part of a container that is written through it is a child. -/
theorem mem_children_of_containerPart? {part node : Node}
    (found : node.containerPart? = some part) : part ∈ node.children := by
  obtain ⟨tree, inside, rfl⟩ := Option.map_eq_some_iff.1 found
  exact List.mem_map.2 ⟨tree, Tree.mem_children_of_containerPart? inside, rfl⟩

/-- A child is lower than its parent. -/
theorem height_lt_of_mem_children {part node : Node} (member : part ∈ node.children) :
    part.tree.height < node.tree.height := by
  obtain ⟨tree, inside, rfl⟩ := List.mem_map.1 member
  exact Tree.height_lt_of_mem_children inside

theorem self_mem_preorder (node : Node) : node ∈ node.preorder :=
  List.mem_map.2 ⟨node.tree, node.tree.self_mem_preorder, rfl⟩

/-- The children of a node occur where the node does. -/
theorem mem_preorder_of_mem_children {root node part : Node} (member : node ∈ root.preorder)
    (inside : part ∈ node.children) : part ∈ root.preorder := by
  obtain ⟨tree, treeMember, rfl⟩ := List.mem_map.1 member
  obtain ⟨child, childMember, rfl⟩ := List.mem_map.1 inside
  exact List.mem_map.2 ⟨child, Tree.mem_preorder_of_mem_children treeMember childMember, rfl⟩

/-- A node comes before what stands below it, child by child. -/
theorem preorder_eq_cons (root : Node) :
    root.preorder = root :: root.children.flatMap Node.preorder := by
  obtain ⟨source, tree⟩ := root
  cases tree with
  | node kind named start stop label children =>
      show List.map _ (Tree.preorder _) = _ :: List.flatMap Node.preorder (List.map _ children)
      rw [Tree.preorder, Tree.preorderAll_eq_flatMap, List.map_cons, List.map_flatMap,
        List.flatMap_map]
      rfl

/-- What occurs in a node is no higher than the node. -/
theorem height_le_of_mem_preorder {root node : Node} (member : node ∈ root.preorder) :
    node.tree.height <= root.tree.height := by
  obtain ⟨tree, inTree, rfl⟩ := List.mem_map.1 member
  exact Tree.height_le_of_mem_preorder inTree

theorem mem_preorder_trans {root middle node : Node} (inner : node ∈ middle.preorder)
    (outer : middle ∈ root.preorder) : node ∈ root.preorder := by
  obtain ⟨tree, inTree, rfl⟩ := List.mem_map.1 outer
  obtain ⟨part, inPart, rfl⟩ := List.mem_map.1 inner
  exact List.mem_map.2 ⟨part, Tree.mem_preorder_trans inPart inTree, rfl⟩

/-- The names of the variables that the node gives a value to. -/
def definedNames (node : Node) : List String :=
  match node.construct with
  | .assignment =>
      match node.child? "left" with
      | some left => left.targets.map text
      | none => []
  | .iteration =>
      match node.namedChildren with
      | _ :: binding :: _ => binding.targets.map text
      | _ => []
  | .staticVariable =>
      match node.child? "name" with
      | some name => if name.isVariable then [name.text] else []
      | none => []
  | _ => []

end Node

/-- The nodes of some files. -/
def nodesOf (roots : List Node) : List Node := roots.flatMap Node.preorder

/-- The children of a node of the files are nodes of the files. -/
theorem mem_nodesOf_of_mem_children {roots : List Node} {node part : Node}
    (member : node ∈ nodesOf roots) (inside : part ∈ node.children) : part ∈ nodesOf roots := by
  obtain ⟨root, rootMember, below⟩ := List.mem_flatMap.1 member
  exact List.mem_flatMap.2 ⟨root, rootMember, Node.mem_preorder_of_mem_children below inside⟩

/-- The roots of the files are nodes of the files. -/
theorem mem_nodesOf_of_root {roots : List Node} {root : Node} (member : root ∈ roots) :
    root ∈ nodesOf roots :=
  List.mem_flatMap.2 ⟨root, member, root.self_mem_preorder⟩

@[simp] theorem nodesOf_singleton (root : Node) : nodesOf [root] = root.preorder :=
  List.flatMap_singleton ..

/-- No two nodes of some files have one key. -/
def KeysDistinct (roots : List Node) : Prop := ((nodesOf roots).map Node.key).Nodup

/-- Nodes of one key are one node, where keys are distinct. -/
theorem KeysDistinct.eq_of_key_eq {roots : List Node} (distinct : KeysDistinct roots)
    {left right : Node} (leftMember : left ∈ nodesOf roots) (rightMember : right ∈ nodesOf roots)
    (same : left.key = right.key) : left = right := by
  unfold KeysDistinct at distinct
  generalize nodesOf roots = nodes at distinct leftMember rightMember
  induction nodes with
  | nil => cases leftMember
  | cons first rest inductionHypothesis =>
      rw [List.map_cons, List.nodup_cons] at distinct
      have later : forall node, node ∈ rest -> node.key ≠ first.key := by
        intro node listed equal
        exact distinct.1 (equal ▸ List.mem_map_of_mem listed)
      rcases List.mem_cons.1 leftMember with rfl | leftRest
      · rcases List.mem_cons.1 rightMember with rfl | rightRest
        · rfl
        · exact absurd same.symm (later right rightRest)
      · rcases List.mem_cons.1 rightMember with rfl | rightRest
        · exact absurd same (later left leftRest)
        · exact inductionHypothesis distinct.2 leftRest rightRest

/-- A node stands inside another one: it occurs wherever that one does, and it is
lower. -/
structure Node.Inside (part node : Node) : Prop where
  occurs : forall roots, node ∈ nodesOf roots -> part ∈ nodesOf roots
  lower : part.tree.height < node.tree.height

namespace Node.Inside

/-- A child lies inside its parent. -/
theorem of_mem_children {part node : Node} (member : part ∈ node.children) : part.Inside node :=
  ⟨fun _ occurs => mem_nodesOf_of_mem_children occurs member, height_lt_of_mem_children member⟩

theorem of_mem_namedChildren {part node : Node} (member : part ∈ node.namedChildren) :
    part.Inside node :=
  of_mem_children (mem_children_of_mem_namedChildren member)

theorem of_child? {part node : Node} {label : String} (found : node.child? label = some part) :
    part.Inside node :=
  of_mem_children (mem_children_of_child? found)

/-- What lies inside a part lies inside the whole. -/
theorem trans {part middle node : Node} (inner : part.Inside middle) (outer : middle.Inside node) :
    part.Inside node :=
  ⟨fun roots occurs => inner.occurs roots (outer.occurs roots occurs),
    Nat.lt_trans inner.lower outer.lower⟩

/-- An argument lies inside its call. -/
theorem of_mem_arguments {part node : Node} (member : part ∈ node.arguments) :
    part.Inside node := by
  unfold Node.arguments at member
  split at member
  · rename_i list found
    exact (of_mem_namedChildren (List.mem_filter.1 member).1).trans (of_child? found)
  · cases member

/-- An argument passes something inside it, or itself. -/
theorem of_argumentValue {value argument node : Node} (inside : argument.Inside node)
    (found : argument.argumentValue = some value) : value.Inside node := by
  unfold Node.argumentValue at found
  split at found
  · exact (of_mem_namedChildren (List.mem_of_getLast? found)).trans inside
  · cases found
    exact inside

/-- A parameter lies inside its declaration. -/
theorem of_mem_parameters {part node : Node} (member : part ∈ node.parameters) :
    part.Inside node := by
  unfold Node.parameters at member
  split at member
  · rename_i list found
    exact (of_mem_namedChildren (List.mem_filter.1 member).1).trans (of_child? found)
  · cases member

/-- What stands anywhere in a part stands inside the whole. -/
theorem of_mem_preorder {part middle node : Node} (member : part ∈ middle.preorder)
    (outer : middle.Inside node) : part.Inside node := by
  obtain ⟨tree, below, rfl⟩ := List.mem_map.1 member
  refine ⟨?_, Nat.lt_of_le_of_lt (Tree.height_le_of_mem_preorder below) outer.lower⟩
  intro roots occurs
  obtain ⟨root, rootMember, inRoot⟩ := List.mem_flatMap.1 (outer.occurs roots occurs)
  obtain ⟨tree, inTree, rfl⟩ := List.mem_map.1 inRoot
  exact List.mem_flatMap.2
    ⟨root, rootMember, List.mem_map.2 ⟨_, Tree.mem_preorder_trans below inTree, rfl⟩⟩

/-- What lies inside a node occurs in its preorder. -/
theorem mem_preorder {part node : Node} (inside : part.Inside node) : part ∈ node.preorder := by
  rw [← nodesOf_singleton]
  exact inside.occurs _ (mem_nodesOf_of_root (List.mem_cons_self ..))

/-- A return statement of a body lies inside what the body lies inside. -/
theorem of_mem_returns {part body node : Node} (member : part ∈ body.returns)
    (outer : body.Inside node) : part.Inside node := by
  obtain ⟨tree, returned, rfl⟩ := List.mem_map.1 member
  obtain ⟨root, rootMember, below⟩ :=
    Tree.mem_preorder_of_mem_walkPruned (List.mem_filter.1 returned).1
  cases List.mem_singleton.1 rootMember
  exact of_mem_preorder (List.mem_map.2 ⟨tree, below, rfl⟩) outer

end Node.Inside

/-- No node of some files is higher than the highest file. -/
theorem height_le_of_mem_nodesOf {roots : List Node} {node : Node} (member : node ∈ nodesOf roots) :
    node.tree.height <= Tree.heightAll (roots.map Node.tree) := by
  obtain ⟨root, rootMember, below⟩ := List.mem_flatMap.1 member
  obtain ⟨tree, treeMember, rfl⟩ := List.mem_map.1 below
  have inner := Tree.height_le_of_mem_preorder treeMember
  have outer := Tree.height_le_heightAll (List.mem_map_of_mem (f := Node.tree) rootMember)
  exact Nat.le_trans inner outer

end PhpTaint.Syntax
