import Mathlib.Tactic.MkIffOfInductiveProp
import PhpTaint.Proofs.Syntax.Kind
import PhpTaint.Proofs.Syntax.Preorder
import PhpTaint.Proofs.Syntax.Targets

/-!
# Trees without their comments

A parser may put a comment under any node, and a comment is a named node like
any other. `stripped` deletes the comments below a node. Most parts of a node
are found by their label or their kind, so that deleting comments does not move
them. Some are found by their place among the named children; `CommentsAside`
says that no comment stands in such a place, and `Undisturbed` says so of a
whole tree. Every part of an undisturbed node is then a part of the stripped
node, with its own comments deleted.
-/

namespace PhpTaint.Syntax

/-- Parts that are gathered from all items of a list are gathered from those that
are kept, if the others have none. -/
theorem flatMap_kept {ι : Type} {items : List ι} {keep : ι -> Bool} {image : ι -> ι}
    {parts : ι -> List ι}
    (none : forall item, item ∈ items -> keep item = false -> parts item = [])
    (same : forall item, item ∈ items -> parts (image item) = (parts item).map image) :
    ((items.filter keep).map image).flatMap parts = (items.flatMap parts).map image := by
  induction items with
  | nil => rfl
  | cons item rest inductionHypothesis =>
      have later := inductionHypothesis
        (fun other member => none other (List.mem_cons_of_mem _ member))
        (fun other member => same other (List.mem_cons_of_mem _ member))
      cases keeps : keep item with
      | false => simp [keeps, later, none item (List.mem_cons_self ..) keeps]
      | true => simp [keeps, later, same item (List.mem_cons_self ..)]

namespace Tree

/-- Whether the root is a comment. -/
def isComment (tree : Tree) : Bool := tree.kind = "comment"

mutual

/-- The tree without the comments below its root. -/
def stripped : Tree -> Tree
  | .node kind named start stop label children =>
      .node kind named start stop label (strippedAll children)

/-- The forest without its comments. -/
def strippedAll : List Tree -> List Tree
  | [] => []
  | tree :: rest => if tree.isComment then strippedAll rest else tree.stripped :: strippedAll rest

end

/-- How many of its first named children a tree of this kind tells by their
place. -/
def leadingParts (kind : String) : Nat :=
  if kind = "foreach_statement" then 2
  else if kind = "const_element" || isContainerKind kind then 1
  else 0

/-- Whether a tree of this kind tells its last named child by its place. -/
def tellsLast (kind : String) : Bool := kind = "argument" || kind = "array_element_initializer"

/-- Whether all named children of a tree of this kind flow into its value. -/
def readsAll (kind : String) : Bool := Form.ofKind kind = .operands || Form.ofKind kind = .unary

/-- Comments stand aside at the root of a tree: nothing that is told by its place
is a comment, and deleting comments leaves neither the tree nor an operation
without parts. -/
@[mk_iff commentsAside_iff]
structure CommentsAside (tree : Tree) : Prop where
  /-- A comment is a leaf and has no label. -/
  bare : tree.isComment = true -> tree.children.isEmpty = true ∧ tree.label = ""
  /-- The children are not all comments. -/
  accompanied : tree.children.isEmpty = true ∨ ∃ child ∈ tree.children, child.isComment = false
  /-- The operands of an operation are not all comments. -/
  operands : readsAll tree.kind = true ->
    tree.namedChildren.isEmpty = true ∨ ∃ child ∈ tree.namedChildren, child.isComment = false
  /-- No comment stands first where the first children are told by their place. -/
  leading : forall child, child ∈ tree.namedChildren.take (leadingParts tree.kind) ->
    child.isComment = false
  /-- No comment stands last where the last child is told by its place. -/
  last : tellsLast tree.kind = true ->
    forall child, child ∈ tree.namedChildren.getLast? -> child.isComment = false
  /-- A comment is not what makes an argument with a name longer than one part. -/
  counted : tree.kind = "argument" -> (tree.child? "name").isSome = true ->
    2 <= tree.namedChildren.length ->
      2 <= (tree.namedChildren.filter fun child => !child.isComment).length

instance (tree : Tree) : Decidable tree.CommentsAside :=
  decidable_of_iff' _ (commentsAside_iff tree)

/-- Comments stand aside everywhere in a tree. -/
def Undisturbed (tree : Tree) : Prop := forall part, part ∈ tree.preorder -> part.CommentsAside

instance (tree : Tree) : Decidable tree.Undisturbed :=
  inferInstanceAs (Decidable (forall part, part ∈ tree.preorder -> part.CommentsAside))

/-- Stripping a forest drops its comments and strips the trees that are left. -/
theorem strippedAll_eq (forest : List Tree) :
    strippedAll forest = (forest.filter fun tree => !tree.isComment).map stripped := by
  induction forest with
  | nil => rfl
  | cons tree rest inductionHypothesis =>
      by_cases comment : tree.isComment = true
      · simp [strippedAll, comment, inductionHypothesis]
      · simp [strippedAll, comment, inductionHypothesis]

@[simp] theorem kind_stripped (tree : Tree) : tree.stripped.kind = tree.kind := by cases tree; rfl

@[simp] theorem named_stripped (tree : Tree) : tree.stripped.named = tree.named := by cases tree; rfl

@[simp] theorem start_stripped (tree : Tree) : tree.stripped.start = tree.start := by cases tree; rfl

@[simp] theorem stop_stripped (tree : Tree) : tree.stripped.stop = tree.stop := by cases tree; rfl

@[simp] theorem label_stripped (tree : Tree) : tree.stripped.label = tree.label := by cases tree; rfl

/-- The children of a stripped tree are the stripped children that are code. -/
theorem children_stripped (tree : Tree) :
    tree.stripped.children = (tree.children.filter fun child => !child.isComment).map stripped := by
  cases tree
  exact strippedAll_eq _

/-- The named children of a stripped tree are the stripped named children that are code. -/
theorem namedChildren_stripped (tree : Tree) :
    tree.stripped.namedChildren =
      (tree.namedChildren.filter fun child => !child.isComment).map stripped := by
  simp only [namedChildren, children_stripped, List.filter_map, List.filter_filter,
    Function.comp_def, named_stripped, Bool.and_comm]

/-- What is searched by a test that no comment passes is found without the
comments. -/
theorem find?_stripped {forest : List Tree} {test : Tree -> Bool}
    (refuses : forall tree, tree ∈ forest -> tree.isComment = true -> test tree = false)
    (same : forall tree : Tree, test tree.stripped = test tree) :
    ((forest.filter fun tree => !tree.isComment).map stripped).find? test =
      (forest.find? test).map stripped := by
  induction forest with
  | nil => rfl
  | cons tree rest inductionHypothesis =>
      have later := inductionHypothesis fun other member =>
        refuses other (List.mem_cons_of_mem _ member)
      by_cases comment : tree.isComment = true
      · have refused := refuses tree (List.mem_cons_self ..) comment
        simp [comment, refused, later]
      · by_cases passes : test tree = true
        · simp [comment, same, passes]
        · simp [comment, same, passes, later]

/-- A token other than a comment is still there when the comments are gone. -/
theorem hasToken_stripped (tree : Tree) {token : String} (other : token ≠ "comment") :
    tree.stripped.hasToken token = tree.hasToken token := by
  unfold hasToken
  rw [children_stripped, List.any_map, List.any_filter]
  refine congrArg (tree.children.any ·) (funext fun child => ?_)
  by_cases comment : child.isComment = true
  · have kind : child.kind = "comment" := by simpa [isComment] using comment
    simp [kind, isComment, Ne.symm other]
  · simp [comment]

namespace Undisturbed

variable {tree : Tree}

theorem here (undisturbed : tree.Undisturbed) : tree.CommentsAside :=
  undisturbed tree tree.self_mem_preorder

/-- What holds of the comments in a whole tree holds of those in its parts. -/
theorem of_mem_preorder (undisturbed : tree.Undisturbed) {part : Tree}
    (member : part ∈ tree.preorder) : part.Undisturbed :=
  fun inner below => undisturbed inner (mem_preorder_trans below member)

theorem of_mem_children (undisturbed : tree.Undisturbed) {child : Tree}
    (member : child ∈ tree.children) : child.Undisturbed :=
  undisturbed.of_mem_preorder (mem_preorder.2 (Or.inr ⟨child, member, child.self_mem_preorder⟩))

theorem of_mem_namedChildren (undisturbed : tree.Undisturbed) {child : Tree}
    (member : child ∈ tree.namedChildren) : child.Undisturbed :=
  undisturbed.of_mem_children (mem_children_of_mem_namedChildren member)

/-- A comment has no children. -/
theorem children_of_isComment (undisturbed : tree.Undisturbed) (comment : tree.isComment = true) :
    tree.children = [] :=
  List.isEmpty_iff.1 (undisturbed.here.bare comment).1

/-- A comment is not found by a label. -/
theorem not_isComment_of_label (undisturbed : tree.Undisturbed) (labelled : tree.label ≠ "") :
    tree.isComment = false := by
  cases comment : tree.isComment with
  | false => rfl
  | true => exact absurd (undisturbed.here.bare comment).2 labelled

/-- A labelled child is the same one without comments, since no comment has a label. -/
theorem child?_stripped (undisturbed : tree.Undisturbed) {label : String}
    (labelled : label ≠ "") : tree.stripped.child? label = (tree.child? label).map stripped := by
  unfold child?
  rw [children_stripped]
  refine find?_stripped ?_ fun child => by rw [label_stripped]
  intro child member comment
  have bare := ((undisturbed.of_mem_children member).here.bare comment).2
  simpa [bare] using Ne.symm labelled

/-- Where the first children are told by their place, a comment does not take the first place. -/
theorem head?_stripped (undisturbed : tree.Undisturbed) (leads : 0 < leadingParts tree.kind) :
    tree.stripped.namedChildren.head? = tree.namedChildren.head?.map stripped := by
  have leading := undisturbed.here.leading
  rw [namedChildren_stripped]
  cases listed : tree.namedChildren with
  | nil => rfl
  | cons first rest =>
      have code : first.isComment = false := by
        refine leading first ?_
        obtain ⟨count, parts⟩ := Nat.exists_eq_succ_of_ne_zero (Nat.ne_of_gt leads)
        rw [listed, parts, List.take_succ_cons]
        exact List.mem_cons_self ..
      simp [code]

/-- Where the last child is told by its place, a comment does not take the last place. -/
theorem getLast?_stripped (undisturbed : tree.Undisturbed) (tells : tellsLast tree.kind = true) :
    tree.stripped.namedChildren.getLast? = tree.namedChildren.getLast?.map stripped := by
  rw [namedChildren_stripped]
  cases found : tree.namedChildren.getLast? with
  | none => rw [List.getLast?_eq_none_iff.1 found]; rfl
  | some final =>
      have code := undisturbed.here.last tells final found
      obtain ⟨earlier, split⟩ := List.getLast?_eq_some_iff.1 found
      rw [split, List.filter_append]
      simp [code]

/-- The variable that is written through a container is found past the comments. -/
theorem containerPart?_stripped (undisturbed : tree.Undisturbed)
    (container : isContainerKind tree.kind = true) :
    tree.stripped.containerPart? = tree.containerPart?.map stripped := by
  have leads : 0 < leadingParts tree.kind := by
    unfold leadingParts
    simp only [container, Bool.or_true, if_true]
    split <;> omega
  unfold containerPart?
  rw [undisturbed.child?_stripped (by decide), undisturbed.head?_stripped leads]
  cases tree.child? "object" with
  | none => rfl
  | some base => rfl

/-- The container behind a chain of accesses is found at the same place. -/
theorem containerBase_stripped (undisturbed : tree.Undisturbed) :
    tree.stripped.containerBase = tree.containerBase.map stripped := by
  induction size : tree.size using Nat.strongRecOn generalizing tree with
  | ind measure inductionHypothesis =>
      rw [containerBase, containerBase, kind_stripped]
      split
      · rename_i container
        have parts := undisturbed.containerPart?_stripped container
        split
        · rename_i part chosen
          rw [chosen] at parts
          obtain ⟨inner, innerChosen, rfl⟩ := Option.map_eq_some_iff.1 parts.symm
          have inside := mem_children_of_containerPart? innerChosen
          have below := inductionHypothesis _ (size ▸ size_lt_of_mem_children inside)
            (undisturbed.of_mem_children inside) rfl
          rw [below]
          split
          · rename_i other otherChosen
            rw [innerChosen] at otherChosen
            cases otherChosen
            rfl
          · rename_i missing
            rw [innerChosen] at missing
            cases missing
        · rename_i missing
          rw [missing] at parts
          split
          · rename_i part chosen
            rw [chosen] at parts
            cases parts
          · rfl
      · rfl

end Undisturbed

/-- Nothing is assigned to a comment. -/
theorem targets_of_dropped {tree : Tree} (dropped : (!tree.isComment) = false) :
    tree.targets = [] := by
  have comment : tree.isComment = true := by simpa using dropped
  have kind : tree.kind = "comment" := by simpa [isComment] using comment
  have plain : isContainerKind "comment" = false := by decide
  simp [targets_eq, kind, plain]

/-- Nothing is assigned to a comment among the elements of a pattern. -/
theorem elementTargets_of_dropped {tree : Tree} (dropped : (!tree.isComment) = false) :
    tree.elementTargets = [] := by
  have kind : tree.kind = "comment" := by simpa [isComment] using dropped
  simp [elementTargets, kind, targets_of_dropped dropped]

/-- An assignment to an undisturbed tree binds the same variables without the
comments. -/
theorem Undisturbed.targets_stripped {tree : Tree} (undisturbed : tree.Undisturbed) :
    tree.stripped.targets = tree.targets.map stripped := by
  induction size : tree.size using Nat.strongRecOn generalizing tree with
  | ind measure inductionHypothesis =>
      have below : forall child, child ∈ tree.namedChildren ->
          child.stripped.targets = child.targets.map stripped := fun child member =>
        inductionHypothesis _
          (size ▸ size_lt_of_mem_children (mem_children_of_mem_namedChildren member))
          (undisturbed.of_mem_namedChildren member) rfl
      have elements : forall child, child ∈ tree.namedChildren ->
          child.stripped.elementTargets = child.elementTargets.map stripped := by
        intro child member
        have inside := undisturbed.of_mem_namedChildren member
        unfold elementTargets
        rw [kind_stripped]
        split
        · rename_i keyed
          rw [inside.getLast?_stripped (by simp [tellsLast, keyed])]
          cases found : child.namedChildren.getLast? with
          | none => rfl
          | some value =>
              have valueMember := List.mem_of_getLast? found
              have smaller : value.size < measure :=
                Nat.lt_trans
                  (size_lt_of_mem_children (mem_children_of_mem_namedChildren valueMember))
                  (size ▸ size_lt_of_mem_children (mem_children_of_mem_namedChildren member))
              exact inductionHypothesis _ smaller (inside.of_mem_namedChildren valueMember) rfl
        · exact below child member
      rw [targets_eq, targets_eq, kind_stripped, namedChildren_stripped,
        flatMap_kept (fun _ _ => targets_of_dropped) below,
        flatMap_kept (fun _ _ => elementTargets_of_dropped) elements,
        undisturbed.containerBase_stripped]
      split
      · rfl
      · split
        · cases tree.containerBase with
          | none => rfl
          | some base =>
              simp only [Option.map_some, kind_stripped]
              split <;> rfl
        · split
          · rfl
          · split <;> rfl

/-- A walk over a forest without comments sees what the walk over the forest
sees, except the comments. -/
theorem walk_stripped {stack : List Tree}
    (undisturbed : forall tree, tree ∈ stack -> tree.Undisturbed) :
    walk ((stack.filter fun tree => !tree.isComment).map stripped) =
      ((walk stack).filter fun tree => !tree.isComment).map stripped := by
  induction stack using walk.induct with
  | case1 => simp [walk]
  | case2 tree pending inductionHypothesis =>
      have first := undisturbed tree (List.mem_cons_self ..)
      have below := inductionHypothesis fun other member =>
        (List.mem_append.1 member).elim (fun child => first.of_mem_children child)
          fun waiting => undisturbed other (List.mem_cons_of_mem _ waiting)
      by_cases comment : tree.isComment = true
      · rw [first.children_of_isComment comment] at below
        rw [walk.eq_2, first.children_of_isComment comment]
        simpa [comment] using below
      · rw [walk.eq_2, List.filter_cons_of_pos (by simp [comment]), List.map_cons, walk.eq_2,
          List.filter_cons_of_pos (by simp [comment]), List.map_cons, ← below, children_stripped,
          List.filter_append, List.map_append]

/-- The descendants of a stripped tree are the stripped descendants that are code. -/
theorem descendants_stripped {tree : Tree} (undisturbed : tree.Undisturbed) :
    tree.stripped.descendants =
      (tree.descendants.filter fun part => !part.isComment).map stripped := by
  unfold descendants
  rw [children_stripped]
  exact walk_stripped fun _ member => undisturbed.of_mem_children member

/-- A walk that enters the same nodes with and without comments passes the same code. -/
theorem walkPruned_stripped {enter : Tree -> Bool} {stack : List Tree}
    (same : forall tree : Tree, enter tree.stripped = enter tree)
    (undisturbed : forall tree, tree ∈ stack -> tree.Undisturbed) :
    walkPruned enter ((stack.filter fun tree => !tree.isComment).map stripped) =
      ((walkPruned enter stack).filter fun tree => !tree.isComment).map stripped := by
  induction stack using walkPruned.induct enter with
  | case1 => simp [walkPruned]
  | case2 tree pending inductionHypothesis =>
      have first := undisturbed tree (List.mem_cons_self ..)
      have below := inductionHypothesis fun other member =>
        (List.mem_append.1 member).elim
          (fun child => first.of_mem_namedChildren (List.mem_filter.1 child).1)
          fun waiting => undisturbed other (List.mem_cons_of_mem _ waiting)
      by_cases comment : tree.isComment = true
      · have childless : tree.namedChildren.filter enter = [] := by
          simp [namedChildren, first.children_of_isComment comment]
        rw [childless] at below
        rw [walkPruned.eq_2, childless]
        simpa [comment] using below
      · have entered : tree.stripped.namedChildren.filter enter =
            ((tree.namedChildren.filter enter).filter fun child => !child.isComment).map
              stripped := by
          rw [namedChildren_stripped, List.filter_map, List.filter_filter, List.filter_filter]
          simp only [Function.comp_def, same, Bool.and_comm]
        rw [walkPruned.eq_2, List.filter_cons_of_pos (by simp [comment]), List.map_cons,
          walkPruned.eq_2, List.filter_cons_of_pos (by simp [comment]), List.map_cons, ← below,
          entered, List.filter_append, List.map_append]

/-- The return statements of a stripped body are the stripped return statements. -/
theorem returns_stripped {body : Tree} (undisturbed : body.Undisturbed)
    (code : body.isComment = false) : body.stripped.returns = body.returns.map stripped := by
  unfold returns
  have walked := @walkPruned_stripped (fun child => !(Construct.ofKind child.kind).isSeparate) [body]
    (fun tree => by rw [kind_stripped]) (by simpa using undisturbed)
  simp only [List.filter_cons, code, Bool.not_false, if_true, List.filter_nil, List.map_cons,
    List.map_nil] at walked
  rw [walked, List.filter_map, List.filter_filter]
  refine congrArg (List.map stripped) (List.filter_congr fun tree _ => ?_)
  by_cases returning : tree.kind = "return_statement"
  · simp [returning, isComment]
  · simp [returning]

/-- Trees that pass a test are counted without the comments, if no comment that
stands aside passes it. -/
theorem countP_preorder_stripped {tree : Tree} {test : Tree -> Bool}
    (undisturbed : tree.Undisturbed)
    (refuses : forall part : Tree, part.CommentsAside -> part.isComment = true ->
      test part = false)
    (same : forall part : Tree, test part.stripped = test part) :
    tree.stripped.preorder.countP test = tree.preorder.countP test := by
  have code : forall part, part ∈ tree.descendants ->
      (!part.isComment && test part) = test part := by
    intro part member
    have inside : part ∈ tree.preorder := by
      rw [preorder_eq_cons_descendants]
      exact List.mem_cons_of_mem _ member
    cases comment : part.isComment with
    | false => rfl
    | true => rw [refuses part (undisturbed part inside) comment]; rfl
  rw [preorder_eq_cons_descendants, preorder_eq_cons_descendants, List.countP_cons,
    List.countP_cons, descendants_stripped undisturbed, List.countP_map, List.countP_filter, same]
  simp only [Function.comp_def, same]
  rw [List.countP_congr fun part member => by rw [Bool.and_comm, code part member]]

/-- A forest is no higher than a bound of all its trees. -/
theorem heightAll_le {forest : List Tree} {bound : Nat}
    (each : forall tree, tree ∈ forest -> tree.height <= bound) : heightAll forest <= bound := by
  induction forest with
  | nil => exact Nat.zero_le _
  | cons tree rest inductionHypothesis =>
      rw [heightAll]
      exact Nat.max_le.2 ⟨each tree (List.mem_cons_self ..),
        inductionHypothesis fun other member => each other (List.mem_cons_of_mem _ member)⟩

/-- A tree is one higher than the forest of its children. -/
theorem height_eq (tree : Tree) : tree.height = 1 + heightAll tree.children := by
  cases tree
  rfl

/-- Comments do not make an undisturbed tree higher. -/
theorem height_stripped {tree : Tree} (undisturbed : tree.Undisturbed) :
    tree.stripped.height = tree.height := by
  induction size : tree.size using Nat.strongRecOn generalizing tree with
  | ind measure inductionHypothesis =>
      have below : forall child, child ∈ tree.children -> child.stripped.height = child.height :=
        fun child member => inductionHypothesis _ (size ▸ size_lt_of_mem_children member)
          (undisturbed.of_mem_children member) rfl
      have kept : forall child, child ∈ tree.children -> child.isComment = false ->
          child.height <= heightAll tree.stripped.children := by
        intro child member code
        rw [← below child member, children_stripped]
        refine height_le_heightAll (List.mem_map_of_mem (List.mem_filter.2 ⟨member, ?_⟩))
        rw [code]
        rfl
      rw [height_eq, height_eq]
      refine congrArg (1 + ·) (Nat.le_antisymm (heightAll_le ?_) (heightAll_le ?_))
      · intro part member
        rw [children_stripped] at member
        obtain ⟨child, inside, rfl⟩ := List.mem_map.1 member
        have childMember := (List.mem_filter.1 inside).1
        rw [below child childMember]
        exact height_le_heightAll childMember
      · intro child member
        cases comment : child.isComment with
        | false => exact kept child member comment
        | true =>
            -- A comment is a leaf, and there is a child beside it that stays.
            have leaf : child.height = 1 := by
              rw [height_eq, (undisturbed.of_mem_children member).children_of_isComment comment]
              rfl
            rcases undisturbed.here.accompanied with empty | ⟨other, otherMember, code⟩
            · rw [List.isEmpty_iff.1 empty] at member
              cases member
            · rw [leaf]
              exact Nat.le_trans other.height_pos (kept other otherMember code)

end Tree

namespace Node

/-- Whether the node is a comment. -/
def isComment (node : Node) : Bool := node.kind = "comment"

/-- The node without the comments below it. -/
def stripped (node : Node) : Node := node.withTree node.tree.stripped

/-- Comments stand aside everywhere in a node. -/
def Undisturbed (node : Node) : Prop := node.tree.Undisturbed

instance (node : Node) : Decidable node.Undisturbed :=
  inferInstanceAs (Decidable node.tree.Undisturbed)

/-- One node is the other without its comments, and nothing is lost with them. -/
def StripsTo (node bare : Node) : Prop := node.Undisturbed ∧ bare = node.stripped

@[simp] theorem tree_stripped (node : Node) : node.stripped.tree = node.tree.stripped := rfl

@[simp] theorem kind_stripped (node : Node) : node.stripped.kind = node.kind :=
  node.tree.kind_stripped

@[simp] theorem file_stripped (node : Node) : node.stripped.file = node.file := rfl

@[simp] theorem key_stripped (node : Node) : node.stripped.key = node.key := by
  simp [key, stripped, withTree]

/-- Stripping leaves the span of a node and hence its text. -/
@[simp] theorem text_stripped (node : Node) : node.stripped.text = node.text := by
  simp [text, stripped, withTree]

@[simp] theorem line_stripped (node : Node) : node.stripped.line = node.line := by
  simp [line, stripped, withTree]

@[simp] theorem describe_stripped (node : Node) : node.stripped.describe = node.describe := by
  simp [describe]

@[simp] theorem construct_stripped (node : Node) : node.stripped.construct = node.construct := by
  simp [construct]

@[simp] theorem form_stripped (node : Node) : node.stripped.form = node.form := by
  simp [form]

@[simp] theorem isVariable_stripped (node : Node) :
    node.stripped.isVariable = node.isVariable := by
  simp [isVariable]

@[simp] theorem variableName_stripped (node : Node) :
    node.stripped.variableName = node.variableName := by
  simp [variableName]

/-- A comment is told by its grammar symbol alone. -/
theorem kind_of_isComment {node : Node} (comment : node.isComment = true) :
    node.kind = "comment" := by
  simpa [isComment] using comment

/-- A comment passes no test of kinds that the kind of comments does not pass. -/
theorem refuses_of_isComment {test : String -> Bool} (refused : test "comment" = false)
    {node : Node} (comment : node.isComment = true) : test node.kind = false := by
  rw [kind_of_isComment comment, refused]

theorem namedChildren_stripped (node : Node) :
    node.stripped.namedChildren =
      (node.namedChildren.filter fun child => !child.isComment).map stripped := by
  unfold namedChildren
  rw [tree_stripped, Tree.namedChildren_stripped, List.filter_map, List.map_map, List.map_map]
  rfl

/-- Children chosen by their symbol are the same without comments, if comments are not chosen. -/
theorem filter_namedChildren_stripped (node : Node) {test : String -> Bool}
    (refused : test "comment" = false) :
    (node.stripped.namedChildren.filter fun child => test child.kind) =
      (node.namedChildren.filter fun child => test child.kind).map stripped := by
  rw [namedChildren_stripped, List.filter_map, List.filter_filter]
  refine congrArg (List.map stripped) (List.filter_congr fun child _ => ?_)
  cases comment : child.isComment with
  | false => simp
  | true => simp [refuses_of_isComment refused comment]

/-- The first child of some symbol is the same without comments, unless comments have it. -/
theorem find?_namedChildren_stripped (node : Node) {test : String -> Bool}
    (refused : test "comment" = false) :
    (node.stripped.namedChildren.find? fun child => test child.kind) =
      (node.namedChildren.find? fun child => test child.kind).map stripped := by
  rw [← List.head?_filter, ← List.head?_filter, filter_namedChildren_stripped node refused,
    List.head?_map]

theorem hasToken_stripped (node : Node) {token : String} (other : token ≠ "comment") :
    node.stripped.hasToken token = node.hasToken token :=
  node.tree.hasToken_stripped other

namespace Undisturbed

variable {node : Node}

theorem here (undisturbed : node.Undisturbed) : node.tree.CommentsAside :=
  Tree.Undisturbed.here undisturbed

theorem of_mem_preorder (undisturbed : node.Undisturbed) {part : Node}
    (member : part ∈ node.preorder) : part.Undisturbed := by
  obtain ⟨tree, below, rfl⟩ := List.mem_map.1 member
  exact Tree.Undisturbed.of_mem_preorder undisturbed below

/-- What holds of the comments in a node holds of those in the nodes inside it. -/
theorem of_inside (undisturbed : node.Undisturbed) {part : Node} (inside : part.Inside node) :
    part.Undisturbed :=
  undisturbed.of_mem_preorder inside.mem_preorder

theorem of_mem_namedChildren (undisturbed : node.Undisturbed) {part : Node}
    (member : part ∈ node.namedChildren) : part.Undisturbed :=
  undisturbed.of_inside (.of_mem_namedChildren member)

theorem of_child? (undisturbed : node.Undisturbed) {part : Node} {label : String}
    (found : node.child? label = some part) : part.Undisturbed :=
  undisturbed.of_inside (.of_child? found)

theorem namedChildren_of_isComment (undisturbed : node.Undisturbed)
    (comment : node.isComment = true) : node.namedChildren = [] := by
  unfold namedChildren Tree.namedChildren
  rw [Tree.Undisturbed.children_of_isComment undisturbed comment]
  rfl

/-- A labelled child is no comment. -/
theorem not_isComment_of_child? (undisturbed : node.Undisturbed) {part : Node} {label : String}
    (labelled : label ≠ "") (found : node.child? label = some part) : part.isComment = false := by
  obtain ⟨tree, inside, rfl⟩ := Option.map_eq_some_iff.1 found
  have member := Tree.mem_children_of_child? inside
  have same : tree.label = label := by simpa using List.find?_some inside
  exact (Tree.Undisturbed.of_mem_children undisturbed member).not_isComment_of_label
    (same ▸ labelled)

theorem child?_stripped (undisturbed : node.Undisturbed) {label : String}
    (labelled : label ≠ "") :
    node.stripped.child? label = (node.child? label).map stripped := by
  unfold child?
  rw [tree_stripped, Tree.Undisturbed.child?_stripped undisturbed labelled, Option.map_map,
    Option.map_map]
  rfl

/-- A stripped declaration has the stripped parameters. -/
theorem parameters_stripped (undisturbed : node.Undisturbed) :
    node.stripped.parameters = node.parameters.map stripped := by
  unfold parameters
  rw [undisturbed.child?_stripped (by decide)]
  cases node.child? "parameters" with
  | none => rfl
  | some list => exact filter_namedChildren_stripped list (by decide)

/-- A stripped parameter has the name that the parameter has. -/
theorem parameterName_stripped (undisturbed : node.Undisturbed) :
    node.stripped.parameterName = node.parameterName := by
  unfold parameterName
  have found : node.stripped.namedChildren.find? isVariable =
      (node.namedChildren.find? isVariable).map stripped :=
    @find?_namedChildren_stripped node (fun kind => kind = "variable_name") (by decide)
  rw [undisturbed.child?_stripped (by decide), found]
  cases node.child? "name" with
  | some name => simp
  | none =>
      cases node.namedChildren.find? isVariable with
      | none => rfl
      | some variableNode => simp

/-- The parameters of a stripped declaration have the names of the parameters. -/
theorem parameterNames_stripped (undisturbed : node.Undisturbed) :
    node.stripped.parameterNames = node.parameterNames := by
  unfold parameterNames
  rw [undisturbed.parameters_stripped, List.map_map]
  refine List.map_congr_left fun parameter member => ?_
  exact (undisturbed.of_inside (.of_mem_parameters member)).parameterName_stripped

theorem containerPart?_stripped (undisturbed : node.Undisturbed)
    (container : isContainerKind node.kind = true) :
    node.stripped.containerPart? = node.containerPart?.map stripped := by
  unfold containerPart?
  rw [tree_stripped, Tree.Undisturbed.containerPart?_stripped undisturbed container,
    Option.map_map, Option.map_map]
  rfl

/-- The variable below nested containers is the same without comments. -/
theorem containerBase_stripped (undisturbed : node.Undisturbed) :
    node.stripped.containerBase = node.containerBase.map stripped := by
  unfold containerBase
  rw [tree_stripped, Tree.Undisturbed.containerBase_stripped undisturbed, Option.map_map,
    Option.map_map]
  rfl

/-- An assignment without its comments writes the same targets. -/
theorem targets_stripped (undisturbed : node.Undisturbed) :
    node.stripped.targets = node.targets.map stripped := by
  unfold targets
  rw [tree_stripped, Tree.Undisturbed.targets_stripped undisturbed, List.map_map, List.map_map]
  rfl

theorem returns_stripped (undisturbed : node.Undisturbed) (code : node.isComment = false) :
    node.stripped.returns = node.returns.map stripped := by
  unfold returns
  rw [tree_stripped, Tree.returns_stripped undisturbed code, List.map_map, List.map_map]
  rfl

theorem descendants_stripped (undisturbed : node.Undisturbed) :
    node.stripped.descendants =
      (node.descendants.filter fun part => !part.isComment).map stripped := by
  unfold descendants
  rw [tree_stripped, Tree.descendants_stripped undisturbed, List.filter_map, List.map_map,
    List.map_map]
  rfl

/-- No comment stands among the children that are told by their place from the front. -/
theorem not_isComment_of_leading (undisturbed : node.Undisturbed) {part : Node}
    (member : part ∈ node.namedChildren.take (Tree.leadingParts node.kind)) :
    part.isComment = false := by
  unfold namedChildren at member
  rw [← List.map_take] at member
  obtain ⟨tree, leading, rfl⟩ := List.mem_map.1 member
  exact undisturbed.here.leading tree leading

theorem head?_stripped (undisturbed : node.Undisturbed)
    (leads : 0 < Tree.leadingParts node.kind) :
    node.stripped.namedChildren.head? = node.namedChildren.head?.map stripped := by
  unfold namedChildren
  rw [tree_stripped, List.head?_map, Tree.Undisturbed.head?_stripped undisturbed leads,
    List.head?_map, Option.map_map, Option.map_map]
  rfl

theorem getLast?_stripped (undisturbed : node.Undisturbed)
    (tells : Tree.tellsLast node.kind = true) :
    node.stripped.namedChildren.getLast? = node.namedChildren.getLast?.map stripped := by
  unfold namedChildren
  rw [tree_stripped, List.getLast?_map, Tree.Undisturbed.getLast?_stripped undisturbed tells,
    List.getLast?_map, Option.map_map, Option.map_map]
  rfl

/-- A stripped call passes the stripped arguments. -/
theorem arguments_stripped (undisturbed : node.Undisturbed) :
    node.stripped.arguments = node.arguments.map stripped := by
  unfold arguments
  rw [undisturbed.child?_stripped (by decide)]
  cases node.child? "arguments" with
  | none => rfl
  | some list =>
      exact @filter_namedChildren_stripped list (fun kind => kind = "argument") (by decide)

/-- The value of an argument is its last child, which is no comment. -/
theorem argumentValue_stripped (undisturbed : node.Undisturbed) :
    node.stripped.argumentValue = node.argumentValue.map stripped := by
  unfold argumentValue
  rw [kind_stripped]
  split
  · rename_i argument
    exact undisturbed.getLast?_stripped (by simp [Tree.tellsLast, argument])
  · rfl

/-- What holds of the comments in an argument holds of those in its value. -/
theorem of_argumentValue (undisturbed : node.Undisturbed) {value : Node}
    (found : node.argumentValue = some value) : value.Undisturbed := by
  unfold argumentValue at found
  split at found
  · exact undisturbed.of_mem_namedChildren (List.mem_of_getLast? found)
  · cases found
    exact undisturbed

/-- A stripped argument has the name that the argument has. -/
theorem argumentName_stripped (undisturbed : node.Undisturbed) :
    node.stripped.argumentName = node.argumentName := by
  unfold argumentName
  rw [undisturbed.child?_stripped (by decide), kind_stripped]
  cases found : node.child? "name" with
  | none => simp
  | some name =>
      by_cases argument : node.kind = "argument"
      · have longer : 2 <= node.stripped.namedChildren.length ↔ 2 <= node.namedChildren.length := by
          have counted := undisturbed.here.counted argument
          obtain ⟨tree, labelled, -⟩ := Option.map_eq_some_iff.1 found
          simp only [namedChildren, tree_stripped, Tree.namedChildren_stripped, List.length_map]
          exact ⟨fun long => Nat.le_trans long (List.length_filter_le ..),
            fun long => counted (by rw [labelled]; rfl) long⟩
        simp [longer]
      · simp [argument]

/-- A call keeps the name of its callee. -/
theorem calleeName_stripped (undisturbed : node.Undisturbed) :
    node.stripped.calleeName = node.calleeName := by
  unfold calleeName
  rw [form_stripped]
  cases node.form with
  | call =>
      dsimp only [Option.bind_some]
      rw [undisturbed.child?_stripped (by decide)]
      cases node.child? "function" with
      | none => rfl
      | some callee => exact callee.text_stripped
  | methodCall =>
      dsimp only [Option.bind_some]
      rw [undisturbed.child?_stripped (by decide)]
      cases node.child? "name" with
      | none => rfl
      | some callee => exact callee.text_stripped
  | _ => rfl

end Undisturbed

end Node

end PhpTaint.Syntax
