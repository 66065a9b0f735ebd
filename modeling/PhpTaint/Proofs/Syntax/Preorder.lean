import Mathlib.Data.List.Sort
import PhpTaint.Proofs.Syntax.Occurrence

/-!
# Preorder of syntax trees

A walk with a stack sees the trees on the stack and everything below them in recursive
preorder. A list of trees does not tell two occurrences of one tree apart. Trails do: a
trail leads from a tree to one of its nodes and lists the children that are passed, each
with its index.

`Tree.trails` are the trails over children that a test accepts, in recursive preorder: a
node before its children, and the children from left to right. These are all such trails,
and they come in lexicographic order of their indices. The walks with a stack see the
ends of the trails in this order.
-/

namespace PhpTaint.Syntax

/-- The kinds of functions and classes, whose code is analysed apart from the code
around it. -/
def separateKinds : List String :=
  ["function_definition", "method_declaration", "arrow_function", "anonymous_function",
    "anonymous_function_creation_expression", "class_declaration", "interface_declaration",
    "trait_declaration", "enum_declaration"]

/-- What is separate is told by the grammar symbol. -/
theorem Construct.isSeparate_ofKind (kind : String) :
    (Construct.ofKind kind).isSeparate = separateKinds.contains kind := by
  unfold Construct.ofKind
  split <;> simp_all [isSeparate, separateKinds]

namespace Tree

/-- The way from a tree down to one of its nodes: the children that are passed,
each with its index. -/
abbrev Trail := List (Nat × Tree)

/-- Whether a trail begins at the given tree and goes from child to child. -/
def IsTrail : Tree -> Trail -> Prop
  | _, [] => True
  | tree, (index, child) :: rest => tree.children[index]? = some child ∧ child.IsTrail rest

/-- The node to which a trail leads. -/
def endOf : Tree -> Trail -> Tree
  | tree, [] => tree
  | _, (_, child) :: rest => child.endOf rest

/-- The order of trails by their indices: a trail comes before its continuations,
and before all trails that leave it for a later child. -/
def Before (first second : Trail) : Prop := first.map Prod.fst < second.map Prod.fst

mutual

/-- The trails of a tree over children that a test accepts, in recursive
preorder. -/
def trails (enter : Tree -> Bool) : Tree -> List Trail
  | .node _ _ _ _ _ children => [] :: trailsFrom enter 0 children

/-- The trails that begin with one of some siblings, the first of which has the
given index. -/
def trailsFrom (enter : Tree -> Bool) (index : Nat) : List Tree -> List Trail
  | [] => []
  | tree :: rest =>
      (if enter tree then (tree.trails enter).map ((index, tree) :: ·) else []) ++
        trailsFrom enter (index + 1) rest

end

/-- The trails that lead to proper descendants. -/
def descents (enter : Tree -> Bool) (tree : Tree) : List Trail := trailsFrom enter 0 tree.children

/-- Whether a trail leads to a return statement of the body itself: neither what it
leads to nor a node between that and the body is a function or class. -/
def isOwnReturn (body : Tree) (trail : Trail) : Bool :=
  (body.endOf trail).kind == "return_statement" &&
    !separateKinds.contains (body.endOf trail).kind &&
    trail.dropLast.all fun step => !separateKinds.contains step.2.kind

variable {enter : Tree -> Bool} {tree : Tree} {forest : List Tree} {index : Nat}
  {trail : Trail}

/-- The trails of a tree are the empty one and those that descend. -/
theorem trails_eq_cons (enter : Tree -> Bool) (tree : Tree) :
    tree.trails enter = [] :: tree.descents enter := by
  cases tree
  rw [trails]
  rfl

/-- A trail that begins with one of some siblings passes the sibling at its first
index and goes on from there. -/
theorem mem_trailsFrom :
    trail ∈ trailsFrom enter index forest ↔ ∃ offset child rest,
      trail = (index + offset, child) :: rest ∧ forest[offset]? = some child ∧
        enter child = true ∧ rest ∈ child.trails enter := by
  induction forest generalizing index with
  | nil => simp [trailsFrom]
  | cons first later inductionHypothesis =>
      rw [trailsFrom, List.mem_append, inductionHypothesis]
      constructor
      · rintro (here | ⟨offset, child, rest, rfl, found, entered, below⟩)
        · split at here
          · rename_i entered
            obtain ⟨rest, below, rfl⟩ := List.mem_map.1 here
            exact ⟨0, first, rest, rfl, rfl, entered, below⟩
          · cases here
        · exact ⟨offset + 1, child, rest, by rw [Nat.add_right_comm, Nat.add_assoc], found,
            entered, below⟩
      · rintro ⟨offset, child, rest, rfl, found, entered, below⟩
        cases offset with
        | zero =>
            cases found
            rw [if_pos entered]
            exact Or.inl (List.mem_map.2 ⟨rest, below, rfl⟩)
        | succ offset =>
            exact Or.inr ⟨offset, child, rest, by rw [Nat.add_right_comm, Nat.add_assoc], found,
              entered, below⟩

/-- The preorder has every trail over accepted children. -/
theorem mem_trails :
    trail ∈ tree.trails enter ↔ tree.IsTrail trail ∧ ∀ step ∈ trail, enter step.2 = true := by
  induction trail generalizing tree with
  | nil => simp [trails_eq_cons, IsTrail]
  | cons step rest inductionHypothesis =>
      rw [trails_eq_cons, List.mem_cons, descents, mem_trailsFrom]
      simp only [List.forall_mem_cons, IsTrail]
      constructor
      · rintro (impossible | ⟨offset, child, _, same, found, entered, below⟩)
        · cases impossible
        · cases same
          obtain ⟨leads, accepted⟩ := inductionHypothesis.1 below
          rw [Nat.zero_add]
          exact ⟨⟨found, leads⟩, entered, accepted⟩
      · rintro ⟨⟨found, leads⟩, entered, accepted⟩
        exact Or.inr ⟨step.1, step.2, rest, by rw [Nat.zero_add], found, entered,
          inductionHypothesis.2 ⟨leads, accepted⟩⟩

/-- A descent is a trail through nodes that may be entered, and not empty. -/
theorem mem_descents :
    trail ∈ tree.descents enter ↔
      (tree.IsTrail trail ∧ ∀ step ∈ trail, enter step.2 = true) ∧ trail ≠ [] := by
  rw [← mem_trails, trails_eq_cons, List.mem_cons]
  constructor
  · intro member
    refine ⟨Or.inr member, ?_⟩
    rintro rfl
    obtain ⟨_, _, _, impossible, _⟩ := mem_trailsFrom.1 member
    cases impossible
  · rintro ⟨rfl | member, proper⟩
    · exact absurd rfl proper
    · exact member

mutual

/-- The preorder lists trails in the order of their indices. -/
theorem pairwise_trails (enter : Tree -> Bool) :
    (tree : Tree) -> (tree.trails enter).Pairwise Before
  | .node _ _ _ _ _ children => by
      rw [trails, List.pairwise_cons]
      refine ⟨fun trail member => ?_, pairwise_trailsFrom enter 0 children⟩
      obtain ⟨offset, child, rest, rfl, _⟩ := mem_trailsFrom.1 member
      exact List.nil_lt_cons _ _

/-- The trails of a forest are listed in order. -/
theorem pairwise_trailsFrom (enter : Tree -> Bool) (index : Nat) :
    (forest : List Tree) -> (trailsFrom enter index forest).Pairwise Before
  | [] => by
      rw [trailsFrom]
      exact List.Pairwise.nil
  | first :: later => by
      rw [trailsFrom, List.pairwise_append]
      refine ⟨?_, pairwise_trailsFrom enter (index + 1) later, ?_⟩
      · split
        · refine (pairwise_trails enter first).map _ fun left right before => ?_
          exact List.cons_lt_cons_iff.2 (Or.inr ⟨rfl, before⟩)
        · exact List.Pairwise.nil
      · intro left leftMember right rightMember
        split at leftMember
        · obtain ⟨_, _, rfl⟩ := List.mem_map.1 leftMember
          obtain ⟨offset, _, _, rfl, _⟩ := mem_trailsFrom.1 rightMember
          exact List.cons_lt_cons_iff.2 (Or.inl (by omega))
        · cases leftMember

end

instance : Std.Irrefl Before where
  irrefl trail := List.lt_irrefl (trail.map Prod.fst)

instance : Std.Antisymm Before where
  antisymm _ _ forth back := absurd back (List.lt_asymm forth)

/-- What a second test rules out can be left out afterwards. -/
theorem trails_and (enter other : Tree -> Bool) (tree : Tree) :
    (tree.trails fun child => other child && enter child) =
      (tree.trails enter).filter fun trail => trail.all fun step => other step.2 := by
  -- Both lists are strictly ordered, so they are equal if they have the same members.
  refine (pairwise_trails _ tree).eq_of_mem_iff ((pairwise_trails enter tree).filter _) ?_
  intro trail
  simp only [List.mem_filter, mem_trails, List.all_eq_true, Bool.and_eq_true]
  constructor
  · rintro ⟨leads, accepted⟩
    exact ⟨⟨leads, fun step member => (accepted step member).2⟩,
      fun step member => (accepted step member).1⟩
  · rintro ⟨⟨leads, entered⟩, accepted⟩
    exact ⟨leads, fun step member => ⟨accepted step member, entered step member⟩⟩

/-- The trails that begin with some siblings end where the trails of the accepted
siblings do. -/
theorem map_endOf_trailsFrom (tree : Tree) :
    (trailsFrom enter index forest).map tree.endOf =
      (forest.filter enter).flatMap fun child => (child.trails enter).map child.endOf := by
  induction forest generalizing index with
  | nil => rw [trailsFrom]; rfl
  | cons first later inductionHypothesis =>
      rw [trailsFrom, List.map_append, inductionHypothesis, List.filter_cons]
      split
      · rw [List.flatMap_cons, List.map_map]
        rfl
      · rfl

/-- A walk sees each tree on the stack in turn, in preorder. -/
theorem walk_eq_flatMap (stack : List Tree) : walk stack = stack.flatMap preorder := by
  induction stack using walk.induct with
  | case1 => simp [walk]
  | case2 tree pending inductionHypothesis =>
      rw [walk, inductionHypothesis, List.flatMap_append, List.flatMap_cons]
      cases tree
      rw [preorder, preorderAll_eq_flatMap]
      rfl

/-- The preorder is the tree in front of its descendants. -/
theorem preorder_eq_cons_descendants (tree : Tree) : tree.preorder = tree :: tree.descendants := by
  unfold descendants
  rw [walk_eq_flatMap]
  cases tree
  rw [preorder, preorderAll_eq_flatMap]
  rfl

/-- A walk sees, for each tree on the stack in turn, the ends of its trails. -/
theorem walk_eq_ends (stack : List Tree) :
    walk stack = stack.flatMap fun tree => (tree.trails fun _ => true).map tree.endOf := by
  induction stack using walk.induct with
  | case1 => rw [walk, List.flatMap_nil]
  | case2 tree pending inductionHypothesis =>
      rw [walk, inductionHypothesis, List.flatMap_append, List.flatMap_cons, trails_eq_cons,
        List.map_cons, descents, map_endOf_trailsFrom, List.filter_true]
      rfl

/-- A pruned walk sees, for each tree on the stack in turn, the ends of its trails
over the children that it enters. -/
theorem walkPruned_eq_ends (enter : Tree -> Bool) (stack : List Tree) :
    walkPruned enter stack = stack.flatMap fun tree =>
      (tree.trails fun child => enter child && child.named).map tree.endOf := by
  induction stack using walkPruned.induct enter with
  | case1 => rw [walkPruned, List.flatMap_nil]
  | case2 tree pending inductionHypothesis =>
      rw [walkPruned, inductionHypothesis, List.flatMap_append, List.flatMap_cons, trails_eq_cons,
        List.map_cons, descents, map_endOf_trailsFrom, namedChildren, List.filter_filter]
      rfl

/-- The descendants are the ends of all descents. -/
theorem descendants_eq_ends (tree : Tree) :
    tree.descendants = (tree.descents fun _ => true).map tree.endOf := by
  rw [descendants, walk_eq_ends, descents, map_endOf_trailsFrom, List.filter_true]

/-- A trail leads to the last node that it passes. -/
theorem endOf_concat (tree : Tree) (front : Trail) (last : Nat × Tree) :
    tree.endOf (front ++ [last]) = last.2 := by
  induction front generalizing tree with
  | nil => rfl
  | cons step front inductionHypothesis => exact inductionHypothesis step.2

/-- A return statement stands in no function or class below the body exactly if no
step of its trail enters one. -/
theorem isOwnReturn_eq (body : Tree) (trail : Trail) :
    body.isOwnReturn trail =
      ((trail.all fun step => !(Construct.ofKind step.2.kind).isSeparate) &&
        (body.endOf trail).kind == "return_statement") := by
  simp only [Construct.isSeparate_ofKind, isOwnReturn]
  rcases List.eq_nil_or_concat trail with rfl | ⟨front, last, rfl⟩
  · by_cases returning : body.kind = "return_statement"
    · simp [endOf, returning, separateKinds]
    · simp [endOf, returning]
  · rw [List.concat_eq_append, List.dropLast_concat, endOf_concat, List.all_append]
    simp [Bool.and_comm, Bool.and_assoc]

/-- The return statements are the ends of the trails that lead to one of the body's own. -/
theorem returns_eq_ends (body : Tree) :
    body.returns = ((body.trails named).filter body.isOwnReturn).map body.endOf := by
  rw [returns, walkPruned_eq_ends, List.flatMap_singleton, trails_and, List.filter_map,
    List.filter_filter]
  refine congrArg (List.map _) (List.filter_congr fun trail _ => ?_)
  rw [isOwnReturn_eq, Bool.and_comm]
  rfl

end Tree

/-- The node to which a trail leads. -/
def Node.endOf (node : Node) (trail : Tree.Trail) : Node := node.withTree (node.tree.endOf trail)

/-- The descendants are the preorders of the children, one after the other. -/
theorem Node.descendants_eq_flatMap (node : Node) :
    node.descendants = node.children.flatMap Node.preorder := by
  have whole : node.preorder = node :: node.descendants := by
    rw [preorder, Tree.preorder_eq_cons_descendants, List.map_cons]
    rfl
  rw [node.preorder_eq_cons] at whole
  exact (List.cons.inj whole).2.symm

/-- The walks that keep a stack see a tree in recursive preorder. The descendants
of a node are the preorders of its children, and they are the ends of all its proper
trails, each trail once, in the order of their indices. The return statements of a body
are listed in the preorder over named children; they are those with no function or class
between them and the body. -/
theorem Node.walks_eq_recursive_preorder (node : Node) :
    (node.descendants = node.children.flatMap Node.preorder ∧
      node.descendants = (node.tree.descents fun _ => true).map node.endOf ∧
      (node.tree.descents fun _ => true).Pairwise Tree.Before ∧
      ∀ trail, trail ∈ (node.tree.descents fun _ => true) ↔
        node.tree.IsTrail trail ∧ trail ≠ []) ∧
    (node.returns = ((node.tree.trails Tree.named).filter node.tree.isOwnReturn).map node.endOf ∧
      (node.tree.trails Tree.named).Pairwise Tree.Before ∧
      ∀ trail, trail ∈ node.tree.trails Tree.named ↔
        node.tree.IsTrail trail ∧ ∀ step ∈ trail, step.2.named = true) := by
  refine ⟨⟨node.descendants_eq_flatMap, ?_, Tree.pairwise_trailsFrom .., fun trail => ?_⟩,
    ?_, Tree.pairwise_trails .., fun trail => Tree.mem_trails⟩
  · rw [descendants, Tree.descendants_eq_ends, List.map_map]
    rfl
  · rw [Tree.mem_descents]
    simp
  · rw [returns, Tree.returns_eq_ends, List.map_map]
    rfl

end PhpTaint.Syntax
