/-!
# Concrete syntax trees

A `Tree` is what a parser hands over: a grammar symbol, a byte span in the
source, and the children in source order. Tokens such as brackets are children
too; they are the ones that are not `named`. A child may carry the label under
which its parent refers to it.

Nothing here assumes that the parser behaved. Labels may be missing or repeated,
spans may be arbitrary, and any kind may occur below any other.
-/

namespace PhpTaint.Syntax

/-- A syntax tree: kind, whether it is more than punctuation, byte span, label
in its parent, and children. -/
inductive Tree where
  /-- A node with its children in source order. -/
  | node (kind : String) (named : Bool) (start stop : Nat) (label : String)
      (children : List Tree)
  deriving Inhabited, Repr

namespace Tree

/-- The grammar symbol of the root. -/
def kind : Tree -> String
  | .node kind _ _ _ _ _ => kind

/-- Whether the root is more than punctuation. -/
def named : Tree -> Bool
  | .node _ named _ _ _ _ => named

/-- The first byte of the span. -/
def start : Tree -> Nat
  | .node _ _ start _ _ _ => start

/-- The byte after the span. -/
def stop : Tree -> Nat
  | .node _ _ _ stop _ _ => stop

/-- The label of the root in its parent, empty for none. -/
def label : Tree -> String
  | .node _ _ _ _ label _ => label

/-- All children, punctuation included. -/
def children : Tree -> List Tree
  | .node _ _ _ _ _ children => children

mutual

/-- The number of nodes. -/
def size : Tree -> Nat
  | .node _ _ _ _ _ children => 1 + sizeAll children

/-- The number of nodes of a forest. -/
def sizeAll : List Tree -> Nat
  | [] => 0
  | tree :: rest => tree.size + sizeAll rest

end

mutual

/-- The number of nodes on a longest path from the root. -/
def height : Tree -> Nat
  | .node _ _ _ _ _ children => 1 + heightAll children

/-- The height of the highest tree of a forest. -/
def heightAll : List Tree -> Nat
  | [] => 0
  | tree :: rest => max tree.height (heightAll rest)

end

/-- The children that are more than punctuation. -/
def namedChildren (tree : Tree) : List Tree := tree.children.filter named

/-- The first child with the given label. -/
def child? (tree : Tree) (label : String) : Option Tree :=
  tree.children.find? fun child => child.label == label

/-- Whether one of the punctuation children is the given token. -/
def hasToken (tree : Tree) (token : String) : Bool :=
  tree.children.any fun child => !child.named && child.kind == token

@[simp] theorem sizeAll_append (left right : List Tree) :
    sizeAll (left ++ right) = sizeAll left + sizeAll right := by
  induction left with
  | nil => simp [sizeAll]
  | cons tree rest inductionHypothesis =>
      simp only [List.cons_append, sizeAll, inductionHypothesis]
      omega

theorem size_le_sizeAll {tree : Tree} {forest : List Tree} (member : tree ∈ forest) :
    tree.size <= sizeAll forest := by
  induction forest with
  | nil => cases member
  | cons head rest inductionHypothesis =>
      simp only [sizeAll]
      rcases List.mem_cons.1 member with equal | later
      · subst equal
        omega
      · have := inductionHypothesis later
        omega

theorem height_le_heightAll {tree : Tree} {forest : List Tree} (member : tree ∈ forest) :
    tree.height <= heightAll forest := by
  induction forest with
  | nil => cases member
  | cons head rest inductionHypothesis =>
      simp only [heightAll]
      rcases List.mem_cons.1 member with equal | later
      · subst equal
        exact Nat.le_max_left _ _
      · exact Nat.le_trans (inductionHypothesis later) (Nat.le_max_right _ _)

/-- A child has fewer nodes than its parent. -/
theorem size_lt_of_mem_children {child tree : Tree} (member : child ∈ tree.children) :
    child.size < tree.size := by
  cases tree with
  | node kind named start stop label children =>
      have := size_le_sizeAll (show child ∈ children from member)
      simp only [size]
      omega

/-- A child is lower than its parent. -/
theorem height_lt_of_mem_children {child tree : Tree} (member : child ∈ tree.children) :
    child.height < tree.height := by
  cases tree with
  | node kind named start stop label children =>
      have := height_le_heightAll (show child ∈ children from member)
      simp only [height]
      omega

theorem mem_children_of_mem_namedChildren {child tree : Tree}
    (member : child ∈ tree.namedChildren) : child ∈ tree.children :=
  (List.mem_filter.1 member).1

theorem mem_children_of_child? {child tree : Tree} {label : String}
    (found : tree.child? label = some child) : child ∈ tree.children :=
  List.mem_of_find?_eq_some found

end Tree

end PhpTaint.Syntax
