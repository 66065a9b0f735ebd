import PhpTaint.Proofs.Syntax.Occurrence

/-!
# The variables that an assignment binds

The targets of a tree by the kind of the tree, in terms of its named children. All
of them are variables.
-/

namespace PhpTaint.Syntax

namespace Tree

theorem targetsOfAll_eq (forest : List Tree) :
    targetsOfAll forest = (forest.filter named).flatMap targets := by
  induction forest with
  | nil => simp [targetsOfAll]
  | cons tree rest inductionHypothesis =>
      by_cases isNamed : tree.named = true
      · simp [targetsOfAll, isNamed, inductionHypothesis]
      · simp [targetsOfAll, isNamed, inductionHypothesis]

theorem targetsOfLast_eq (forest : List Tree) :
    targetsOfLast forest = (forest.filter named).getLast?.elim [] targets := by
  induction forest with
  | nil => simp [targetsOfLast]
  | cons tree rest inductionHypothesis =>
      rw [targetsOfLast]
      by_cases isNamed : tree.named = true
      · by_cases later : rest.any named = true
        · have nonempty : rest.filter named ≠ [] := by
            obtain ⟨other, member, otherNamed⟩ := List.any_eq_true.1 later
            exact List.ne_nil_of_mem (List.mem_filter.2 ⟨member, otherNamed⟩)
          obtain ⟨first, others, split⟩ := List.exists_cons_of_ne_nil nonempty
          simp [isNamed, later, inductionHypothesis, split, List.getLast?_cons_cons]
        · have empty : rest.filter named = [] := by
            simpa [List.filter_eq_nil_iff] using later
          simp [isNamed, later, empty]
      · simp [isNamed, inductionHypothesis]

/-- The variables that an element of a destructuring binds. -/
def elementTargets (element : Tree) : List Tree :=
  if element.kind = "array_element_initializer" then
    element.namedChildren.getLast?.elim [] targets
  else element.targets

theorem targetsOfElements_eq (forest : List Tree) :
    targetsOfElements forest = (forest.filter named).flatMap elementTargets := by
  induction forest with
  | nil => simp [targetsOfElements]
  | cons tree rest inductionHypothesis =>
      cases tree with
      | node kind isNamed start stop label children =>
          rw [targetsOfElements, inductionHypothesis, targetsOfLast_eq]
          cases isNamed with
          | true =>
              rw [List.filter_cons_of_pos rfl, List.flatMap_cons]
              rfl
          | false => simp [named]

theorem targets_eq (tree : Tree) :
    tree.targets =
      if tree.kind = "variable_name" then [tree]
      else if isContainerKind tree.kind then
        match tree.containerBase with
        | some base => if base.kind = "variable_name" then [base] else []
        | none => []
      else if tree.kind = "by_ref" || tree.kind = "pair" then tree.namedChildren.flatMap targets
      else if tree.kind = "list_literal" || tree.kind = "array_creation_expression" then
        tree.namedChildren.flatMap elementTargets
      else [] := by
  cases tree
  rw [targets, targetsOfAll_eq, targetsOfElements_eq]
  rfl

/-- Only variables are bound. -/
theorem kind_of_mem_targets {tree target : Tree} (member : target ∈ tree.targets) :
    target.kind = "variable_name" := by
  induction size : tree.size using Nat.strongRecOn generalizing tree with
  | ind measure inductionHypothesis =>
      have smaller {outer part : Tree} (inside : part ∈ outer.namedChildren) :
          part.size < outer.size :=
        size_lt_of_mem_children (mem_children_of_mem_namedChildren inside)
      have inPart {part : Tree} (lower : part.size < tree.size) (bound : target ∈ part.targets) :
          target.kind = "variable_name" :=
        inductionHypothesis part.size (size ▸ lower) bound rfl
      rw [targets_eq] at member
      split at member
      · rename_i kind
        rw [List.mem_singleton.1 member, kind]
      split at member
      · split at member
        · split at member
          · rename_i base _ kind
            rw [List.mem_singleton.1 member, kind]
          · cases member
        · cases member
      split at member
      · obtain ⟨part, inside, bound⟩ := List.mem_flatMap.1 member
        exact inPart (smaller inside) bound
      split at member
      · obtain ⟨part, inside, bound⟩ := List.mem_flatMap.1 member
        unfold elementTargets at bound
        split at bound
        · cases last : part.namedChildren.getLast? with
          | none =>
              rw [last] at bound
              cases bound
          | some value =>
              rw [last] at bound
              have below := smaller (List.mem_of_getLast? last)
              exact inPart (Nat.lt_trans below (smaller inside)) bound
        · exact inPart (smaller inside) bound
      · cases member

end Tree

theorem Node.isVariable_of_mem_targets {node target : Node} (member : target ∈ node.targets) :
    target.isVariable = true := by
  obtain ⟨tree, inside, rfl⟩ := List.mem_map.1 member
  exact decide_eq_true (Tree.kind_of_mem_targets inside)

end PhpTaint.Syntax
