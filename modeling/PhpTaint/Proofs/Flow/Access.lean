import PhpTaint.Proofs.Annotation.Walk
import PhpTaint.Proofs.Flow.Following
import PhpTaint.Proofs.Flow.Returns
import PhpTaint.Proofs.Syntax.Named

/-!
# Where tracing goes

Annotation goes through a file by its named children, and through some constructs
by labels. Tracing goes by labels and positions of its own: from an expression to
its parts, from a definition to the value it gives and to the variable whose former
value it keeps, from a function to what it returns. If labelled parts are named
nodes, all return statements are walked, and the arguments of walked calls are, then
none of these steps leads from a node that annotation came to, to one that it did
not come to.
-/

namespace PhpTaint.Flow

open Scopes Syntax Rules
open Annotation (walkedNodes walkedParts walksAll mem_walkedNodes_of_part
  walkedParts_of_walksAll mem_nodesOf_of_mem_walkedNodes)

/-- Labelled parts are named nodes, and annotation came to all return statements and
to all default values of parameters. -/
structure Accessible (roots : List Node) : Prop where
  named : forall node, node ∈ nodesOf roots -> forall part, part ∈ node.children ->
    part.tree.label ≠ "" -> part.tree.named = true
  returns : forall node, node ∈ nodesOf roots -> node.kind = "return_statement" ->
    node ∈ walkedNodes roots
  defaults : forall declaration, declaration ∈ nodesOf roots ->
    forall parameter, parameter ∈ declaration.parameters ->
      forall value, parameter.child? "default_value" = some value -> value ∈ walkedNodes roots

/-- Annotation came to the arguments of all calls that it came to. -/
def ArgumentsWalked (roots : List Node) : Prop :=
  forall call, call ∈ walkedNodes roots -> call.form = .call ->
    forall argument, argument ∈ call.arguments -> argument ∈ walkedNodes roots

/-- Whether annotation came to a node with the key of this one. -/
def isWalked (roots : List Node) (node : Node) : Bool :=
  (walkedNodes roots).any fun other => other == node

/-- Whether files are accessible, by the keys of their nodes. -/
def checkAccess (roots : List Node) : Bool :=
  (nodesOf roots).all fun node =>
    node.children.all (fun part => part.tree.label == "" || part.tree.named) &&
    (node.kind != "return_statement" || isWalked roots node) &&
    node.parameters.all fun parameter => (parameter.child? "default_value").all (isWalked roots)

/-- Whether the arguments of walked calls are walked, by their keys. -/
def checkArguments (roots : List Node) : Bool :=
  (walkedNodes roots).all fun call => call.form != .call || call.arguments.all (isWalked roots)

section Steps

variable {roots : List Node} {node part : Node}

/-- Where keys tell nodes apart, the key shows that a node is walked. -/
theorem walked_of_isWalked (distinct : KeysDistinct roots) (member : node ∈ nodesOf roots)
    (walked : isWalked roots node = true) : node ∈ walkedNodes roots := by
  obtain ⟨other, otherWalked, same⟩ := List.any_eq_true.1 walked
  obtain rfl := distinct.eq_of_key_eq (mem_nodesOf_of_mem_walkedNodes otherWalked) member
    (of_decide_eq_true same)
  exact otherWalked

/-- What passes the check is accessible. -/
theorem accessible_of_checkAccess (distinct : KeysDistinct roots)
    (passed : checkAccess roots = true) : Accessible roots := by
  simp only [checkAccess, Bool.and_eq_true, List.all_eq_true, Bool.or_eq_true, beq_iff_eq,
    bne_iff_ne] at passed
  refine ⟨?_, ?_, ?_⟩
  · intro node member part inside labelled
    exact ((passed node member).1.1 part inside).resolve_left labelled
  · intro node member isReturn
    have walked := (passed node member).1.2.resolve_left (not_not_intro isReturn)
    exact walked_of_isWalked distinct member walked
  · intro declaration member parameter listed value found
    have walked := (passed declaration member).2 parameter listed
    rw [found] at walked
    have inside := (Node.Inside.of_child? found).trans (.of_mem_parameters listed)
    exact walked_of_isWalked distinct (inside.occurs roots member) walked

/-- What passes the check has its arguments walked. -/
theorem argumentsWalked_of_checkArguments (distinct : KeysDistinct roots)
    (passed : checkArguments roots = true) : ArgumentsWalked roots := by
  simp only [checkArguments, List.all_eq_true, Bool.or_eq_true, bne_iff_ne] at passed
  intro call member isCall argument listed
  have walked := (passed call member).resolve_left (not_not_intro isCall) argument listed
  have inside := Node.Inside.of_mem_arguments listed
  exact walked_of_isWalked distinct
    (inside.occurs roots (mem_nodesOf_of_mem_walkedNodes member)) walked

/-- All named children of a node without an effect of its own are walked. -/
theorem walked_of_plain (member : node ∈ walkedNodes roots) (isPlain : node.construct = .plain)
    (inside : part ∈ node.namedChildren) : part ∈ walkedNodes roots := by
  have all : walksAll node = true := by rw [walksAll, isPlain]
  exact mem_walkedNodes_of_part member (walkedParts_of_walksAll all ▸ inside)

/-- The value of a walked argument is walked. -/
theorem walked_of_argumentValue (member : node ∈ walkedNodes roots)
    (passed : node.argumentValue = some part) : part ∈ walkedNodes roots := by
  unfold Node.argumentValue at passed
  split at passed
  · rename_i isArgument
    have isPlain : node.construct = .plain := by
      rw [Node.construct, isArgument]
      rfl
    exact walked_of_plain member isPlain (List.mem_of_getLast? passed)
  · cases passed
    exact member

/-- The defining part of a walked node is walked. -/
theorem walked_of_definingPart? (member : node ∈ walkedNodes roots)
    (found : definingPart? node = some part) : part ∈ walkedNodes roots := by
  refine mem_walkedNodes_of_part member ?_
  unfold definingPart? at found
  unfold walkedParts
  cases construct : node.construct with
  | assignment | staticVariable =>
      rw [construct] at found
      simp [found]
  | iteration =>
      rw [construct] at found
      exact List.mem_of_mem_head? found
  | program | namespaceDefinition | functionDefinition | methodDeclaration | closure
  | arrowFunction | classDeclaration | propertyDeclaration | constantDeclaration
  | globalDeclaration | unset | call | plain =>
      rw [construct] at found
      cases found

section Labels

variable (accessible : Accessible roots)

include accessible

/-- The parts of an accessible node are named. -/
theorem Accessible.partsNamed (member : node ∈ nodesOf roots) : node.partsNamed = true := by
  refine List.all_eq_true.2 fun label listed => ?_
  cases found : node.tree.child? label with
  | none => rfl
  | some tree =>
      have labelled : tree.label = label := by
        have chosen := List.find?_some found
        exact eq_of_beq chosen
      refine accessible.named node member (node.withTree tree) ?_ ?_
      · exact List.mem_map_of_mem (Tree.mem_children_of_child? found)
      · rintro empty
        obtain rfl : label = "" := labelled.symm.trans empty
        exact absurd listed (by decide)

/-- The part of a walked container is walked. -/
theorem walked_of_containerPart? (member : node ∈ walkedNodes roots)
    (isContainer : node.form = .container) (found : node.containerPart? = some part) :
    part ∈ walkedNodes roots := by
  have isPlain : node.construct = .plain := by
    unfold Node.form at isContainer
    exact Construct.eq_plain_of_form (by simp [isContainer]) (by simp [isContainer])
      (by simp [isContainer])
  exact walked_of_plain member isPlain (Node.mem_namedChildren_of_containerPart?
    (accessible.partsNamed (mem_nodesOf_of_mem_walkedNodes member)) found)

/-- By induction along the chain of accesses. -/
theorem walked_of_containerBase (member : node ∈ walkedNodes roots)
    (found : node.containerBase = some part) : part ∈ walkedNodes roots := by
  induction size : node.tree.size using Nat.strongRecOn generalizing node with
  | ind measure inductionHypothesis =>
      obtain ⟨base, chosen, rfl⟩ := Option.map_eq_some_iff.1 found
      rw [Tree.containerBase] at chosen
      split at chosen
      · rename_i isContainer
        split at chosen
        · rename_i inner innerFound
          have step : node.containerPart? = some (node.withTree inner) := by
            rw [Node.containerPart?, innerFound]
            rfl
          have walked :=
            walked_of_containerPart? accessible member (of_decide_eq_true isContainer) step
          have smaller := Tree.size_lt_of_mem_children
            (Tree.mem_children_of_containerPart? innerFound)
          refine inductionHypothesis _ (size ▸ smaller) walked ?_ rfl
          rw [Node.containerBase, Node.withTree, chosen]
          rfl
        · cases chosen
      · cases chosen
        exact member

/-- The variable whose former value is kept. -/
theorem walked_of_formerVariable? {left start : Node} (member : node ∈ walkedNodes roots)
    (kept : keptTarget? node = some left) (chosen : formerVariable? left = some start) :
    start ∈ walkedNodes roots := by
  have leftWalked : left ∈ walkedNodes roots := by
    refine mem_walkedNodes_of_part member ?_
    unfold keptTarget? at kept
    split at kept
    · rename_i isAssignment
      simp [walkedParts, isAssignment, (Option.filter_eq_some_iff.1 kept).1]
    · cases kept
  have chosen := (Option.filter_eq_some_iff.1 chosen).1
  split at chosen
  · exact walked_of_containerBase accessible leftWalked chosen
  · cases chosen
    exact leftWalked

/-- What a declared function returns. -/
theorem walked_of_returned (member : node ∈ nodesOf roots)
    (declares : node.construct = .functionDefinition) (returned : part ∈ returnedValues node) :
    part ∈ walkedNodes roots := by
  obtain ⟨⟨line, _⟩, listed, rfl⟩ := List.mem_map.1 returned
  unfold returnedOn at listed
  cases found : node.child? "body" with
  | none =>
      rw [found] at listed
      cases listed
  | some body =>
      rw [found] at listed
      simp only [declares, reduceCtorEq, if_false] at listed
      obtain ⟨statement, stated, chosen⟩ := List.mem_filterMap.1 listed
      obtain ⟨_, picked, same⟩ := Option.map_eq_some_iff.1 chosen
      cases same
      have inFile := (Node.Inside.of_mem_returns stated (.of_child? found)).occurs roots member
      have isReturn : statement.kind = "return_statement" := by
        obtain ⟨tree, inTree, rfl⟩ := List.mem_map.1 stated
        exact of_decide_eq_true (List.mem_filter.1 inTree).2
      have isPlain : statement.construct = .plain := by
        rw [Node.construct, isReturn]
        rfl
      exact walked_of_plain (accessible.returns statement inFile isReturn) isPlain
        (List.mem_of_find?_eq_some picked)

/-- The parts that flow into the value of an expression. The forms differ in how
they read them. -/
theorem walked_of_valuePart {rules : RuleSet} (arguments : ArgumentsWalked roots)
    (member : node ∈ walkedNodes roots) (read : part ∈ valueParts rules node) :
    part ∈ walkedNodes roots := by
  have isPlain (follows : node.form ∉ [.assignment, .call, .other]) : node.construct = .plain := by
    simp only [List.mem_cons, List.not_mem_nil, or_false, not_or] at follows
    exact Construct.eq_plain_of_form follows.1 follows.2.1 follows.2.2
  cases valuePart_of_mem read with
  | child reads listed =>
      have apart : forall form, form ∈ [Form.operands, .unary, .interpolated, .argument] ->
          form ∉ [.assignment, .call, .other] := by decide
      exact walked_of_plain member (isPlain (apart _ reads)) listed
  | @element element part isArray listed isElement value =>
      have elementPlain : element.construct = .plain := by
        rw [Node.construct, isElement]
        rfl
      have elementWalked := walked_of_plain member (isPlain (by rw [isArray]; decide)) listed
      exact walked_of_plain elementWalked elementPlain value
  | container isContainer found => exact walked_of_containerPart? accessible member isContainer found
  | argument isCall listed => exact arguments node member isCall part listed
  | labelled reads listed found =>
      have apart : forall form, form ∈ [Form.conditional, .cast] ->
          form ∉ [.assignment, .call, .other] := by decide
      have known : ["body", "condition", "alternative", "value"] ⊆ partLabels := by decide
      exact walked_of_plain member (isPlain (apart _ reads)) (Node.mem_namedChildren_of_child?
        (accessible.partsNamed (mem_nodesOf_of_mem_walkedNodes member)) (known listed) found)
  | side assigns listed found =>
      have isAssignment : node.construct = .assignment := Construct.eq_assignment_of_form assigns
      refine mem_walkedNodes_of_part member ?_
      rw [walkedParts, isAssignment]
      have here := Option.mem_toList.2 found
      simp only [List.mem_cons, List.not_mem_nil, or_false] at listed
      rcases listed with rfl | rfl
      · exact List.mem_append_left _ here
      · exact List.mem_append_right _ here

end Labels

end Steps

end PhpTaint.Flow
