import PhpTaint.Syntax.Tree

/-!
# Walks over syntax trees

Two walks visit a tree with an explicit stack of trees that are still to be
seen. `walk` sees every tree of a forest; `walkPruned` follows only the named
children that a test accepts. The head of the list is the top of the stack, so
the children of a tree are seen before its later siblings.

`preorder` is the recursive definition of the same order: a tree before its
children, and the children from left to right.
-/

namespace PhpTaint.Syntax.Tree

mutual

/-- The tree and its descendants, each before its own children. -/
def preorder : Tree -> List Tree
  | .node kind named start stop label children =>
      .node kind named start stop label children :: preorderAll children

/-- The preorders of a forest, one after the other. -/
def preorderAll : List Tree -> List Tree
  | [] => []
  | tree :: rest => tree.preorder ++ preorderAll rest

end

/-- Visit the trees on a stack and everything below them. -/
def walk : List Tree -> List Tree
  | [] => []
  | tree :: pending => tree :: walk (tree.children ++ pending)
termination_by stack => sizeAll stack
decreasing_by
  cases tree
  simp only [sizeAll_append, sizeAll, children, size]
  omega

/-- The proper descendants of a tree. -/
def descendants (tree : Tree) : List Tree := walk tree.children

/-- Filtering cannot make a forest larger. -/
theorem sizeAll_filter_le (keep : Tree -> Bool) (forest : List Tree) :
    sizeAll (forest.filter keep) <= sizeAll forest := by
  induction forest with
  | nil => simp [sizeAll]
  | cons tree rest inductionHypothesis =>
      simp only [List.filter_cons]
      split
      · simp only [sizeAll]
        omega
      · simp only [sizeAll]
        omega

/-- Visit the trees on a stack and, below each of them, the named children that
`enter` accepts. -/
def walkPruned (enter : Tree -> Bool) : List Tree -> List Tree
  | [] => []
  | tree :: pending => tree :: walkPruned enter (tree.namedChildren.filter enter ++ pending)
termination_by stack => sizeAll stack
decreasing_by
  have inner := sizeAll_filter_le enter tree.namedChildren
  have outer := sizeAll_filter_le named tree.children
  cases tree
  simp only [sizeAll_append, sizeAll, namedChildren, children, size] at *
  omega

end PhpTaint.Syntax.Tree
