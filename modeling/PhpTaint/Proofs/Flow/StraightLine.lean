import Mathlib.Data.List.Nodup
import PhpTaint.Proofs.Annotation.Refinement
import PhpTaint.Proofs.Flow.Following
import PhpTaint.Proofs.Flow.Forward

/-!
# Where the expressions of a straight-line program stand

The expression that a step evaluates stands in the dictionary of the bindings
that the steps before it have made. Nodes are told apart by their keys, so what
later statements stamp does not change that.
-/

namespace PhpTaint.Flow.Forward

open Scopes Syntax Rules Annotation
open Annotation.Dictionary

variable {owner : ScopeId} {height : Nat} {statement : Node} {step : Step} {state : State}
  {bound : Table String (Binding Node)}

/-- A statement that consists of one assignment to a variable. -/
structure Assigns (statement node left value : Node) : Prop where
  kind : statement.kind = "expression_statement"
  only : statement.namedChildren = [node]
  assignment : node.kind = "assignment_expression"
  leftFound : node.child? "left" = some left
  valueFound : node.child? "right" = some value
  isVariable : left.isVariable = true
  leftInert : isInert left = true
  valueInert : isInert value = true

/-- A statement is inert or assigns a value to a variable. -/
theorem Step.cases_ofStatement? (parsed : Step.ofStatement? statement = some step) :
    (step = .inert statement ∧ isInert statement = true) ∨
      ∃ node left value, step = .assignment left.text node value ∧
        Assigns statement node left value := by
  unfold Step.ofStatement? at parsed
  split at parsed
  · rename_i inert
    cases parsed
    exact Or.inl ⟨rfl, inert⟩
  · split at parsed
    · rename_i kind
      split at parsed
      · rename_i node only
        split at parsed
        · rename_i assignment
          split at parsed
          · rename_i left value leftFound valueFound
            split at parsed
            · rename_i checks
              simp only [Bool.and_eq_true] at checks
              cases parsed
              exact Or.inr ⟨node, left, value, rfl, kind, only, assignment, leftFound, valueFound,
                checks.1.1, checks.1.2, checks.2⟩
            · cases parsed
          · cases parsed
        · cases parsed
      · cases parsed
    · cases parsed

namespace Assigns

variable {node left value : Node} (assigns : Assigns statement node left value)

include assigns

theorem node_mem : node ∈ statement.namedChildren := by
  rw [assigns.only]
  exact List.mem_singleton_self node

theorem construct : node.construct = .assignment := by
  rw [Node.construct, assigns.assignment]
  rfl

/-- The left side of such an assignment is no container. -/
theorem notContainer : isContainerKind left.kind = false := by
  rw [of_decide_eq_true assigns.isVariable]
  rfl

/-- The left side of such an assignment is its only target. -/
theorem targets : left.targets = [left] := by
  refine targets_of_formerVariable? ?_
  simp [formerVariable?, assigns.notContainer, assigns.isVariable]

end Assigns

/-- What reading a statement does: its step is performed on the current
dictionary, and the expression that it evaluates is stamped with the dictionary
from before. -/
structure Performed (bound : Table String (Binding Node)) (step : Step) (statement : Node)
    (before after : State) : Prop where
  stack : after.stack = [bindStep bound step]
  stamps : ∃ added, after.stamps = added ++ before.stamps ∧
    (forall entry, entry ∈ added -> entry.1 ∈ statement.preorder ∧
      (entry.1 ∈ step.value.preorder -> entry.2 = bound)) ∧
    forall node, node.Beneath step.value -> ∃ entry, entry ∈ added ∧ entry.1 = node

/-- Reading an assignment to a variable: value, target, binding. -/
theorem readAssignment_eq {node left value : Node} {read : Reading}
    (assigns : Assigns statement node left value) :
    readAssignment read node state =
      let inner := read left (read value state)
      let store := inner.top.insert left.text (.referent node)
      (inner.overwrite store).stamp node store := by
  simp [readAssignment, readPart, assigned, define, assigns.leftFound, assigns.valueFound,
    assigns.targets]

/-- The statement of an assignment is stamped, then the assignment is read. -/
theorem read_eq_readAssignment {node left value : Node}
    (assigns : Assigns statement node left value) :
    read owner (height + 2) statement state =
      readAssignment (read owner height) node (state.stampHere statement) := by
  have plain : statement.construct = .plain := by
    rw [Node.construct, assigns.kind]
    rfl
  rw [Dictionary.read, readNode, plain]
  simp only [readPlain, readChildren, assigns.only, List.foldl_cons, List.foldl_nil]
  rw [Dictionary.read, readNode, assigns.construct]

/-- Reading the parts of an assignment stamps them with the current dictionary. -/
theorem read_parts (owner : ScopeId) (state : State) {node left value : Node}
    (assigns : Assigns statement node left value)
    (enough : statement.tree.height <= height + 2) :
    Stamped state.top (· ∈ statement.preorder) (·.Beneath value) state
      (read owner height left (read owner height value (state.stampHere statement))) := by
  have nodeInside := Node.Inside.of_mem_namedChildren assigns.node_mem
  have leftInside := Node.Inside.of_child? assigns.leftFound
  have valueInside := Node.Inside.of_child? assigns.valueFound
  have nodeLower := nodeInside.lower
  have leftLower := leftInside.lower
  have valueLower := valueInside.lower
  have within : forall part : Node, part.Inside node -> forall inner, inner ∈ part.preorder ->
      inner ∈ statement.preorder := by
    intro part inside inner below
    exact (Node.Inside.of_mem_preorder below (inside.trans nodeInside)).mem_preorder
  have here : Stamped state.top (· ∈ statement.preorder) (· = statement) state
      (state.stampHere statement) :=
    (Stamped.stampHere state statement).mono
      (fun _ same => same ▸ statement.self_mem_preorder) fun _ same => same
  have evaluated := (read_inert owner assigns.valueInert
    (show value.tree.height <= height by omega) (state.stampHere statement)).mono
    (within value valueInside) fun _ beneath => beneath
  have targeted := (read_inert owner assigns.leftInert
    (show left.tree.height <= height by omega)
    (read owner height value (state.stampHere statement))).mono
    (within left leftInside) fun _ beneath => beneath
  rw [evaluated.top_eq] at targeted
  refine ((here.trans evaluated).trans targeted).mono (fun _ inside => inside) ?_
  intro inner beneath
  exact Or.inl (Or.inr beneath)

/-- Reading an assignment performs its step. -/
theorem read_assignment {node left value : Node} (assigns : Assigns statement node left value)
    (enough : statement.tree.height <= height) (stack : state.stack = [bound]) :
    Performed bound (.assignment left.text node value) statement state
      (read owner height statement state) := by
  have nodeInside := Node.Inside.of_mem_namedChildren assigns.node_mem
  have valueInside := Node.Inside.of_child? assigns.valueFound
  obtain ⟨height, rfl⟩ : ∃ rest, height = rest + 2 := by
    have nodeLower := nodeInside.lower
    have valueLower := valueInside.lower
    exact ⟨height - 2, by omega⟩
  rw [read_eq_readAssignment assigns, readAssignment_eq assigns]
  have walked := read_parts owner state assigns enough
  have top : state.top = bound := by rw [State.top, stack, List.headD_cons]
  rw [top] at walked
  generalize read owner height left (read owner height value (state.stampHere statement)) = last
    at walked
  have lastTop : last.top = bound := walked.top_eq.trans top
  obtain ⟨same, added, stamps, entries, complete⟩ := walked
  refine ⟨?_, (node, bound.insert left.text (.referent node)) :: added, ?_, ?_, ?_⟩
  · simp only [lastTop]
    show _ :: last.stack.tail = _
    rw [same, stack]
    rfl
  · simp only [lastTop]
    show _ :: last.stamps = _
    rw [stamps, List.cons_append]
  · intro entry member
    rcases List.mem_cons.1 member with rfl | earlier
    · refine ⟨nodeInside.mem_preorder, ?_⟩
      -- the assignment is higher than its value
      intro below
      have higher := Node.height_le_of_mem_preorder below
      have lower := valueInside.lower
      simp only [Step.value] at higher
      omega
    · exact ⟨(entries entry earlier).1, fun _ => (entries entry earlier).2⟩
  · intro inner beneath
    obtain ⟨entry, member, found⟩ := complete inner beneath
    exact ⟨entry, List.mem_cons_of_mem _ member, found⟩

/-- Reading a statement of a straight-line program. -/
theorem read_statement (owner : ScopeId) (parsed : Step.ofStatement? statement = some step)
    (enough : statement.tree.height <= height) (stack : state.stack = [bound]) :
    Performed bound step statement state (read owner height statement state) := by
  rcases Step.cases_ofStatement? parsed with ⟨rfl, inert⟩ | ⟨node, left, value, rfl, assigns⟩
  · have stamped := read_inert owner inert enough state
    have top : state.top = bound := by rw [State.top, stack, List.headD_cons]
    rw [top] at stamped
    obtain ⟨same, added, stamps, entries, complete⟩ := stamped
    refine ⟨same.trans stack, added, stamps, ?_, complete⟩
    intro entry member
    exact ⟨(entries entry member).1, fun _ => (entries entry member).2⟩
  · exact read_assignment assigns enough stack

/-- A statement of a straight-line program opens no namespace. -/
theorem opensNamespace_eq_false (parsed : Step.ofStatement? statement = some step) :
    opensNamespace statement = false := by
  have other : statement.construct ≠ .namespaceDefinition := by
    intro construct
    rcases Step.cases_ofStatement? parsed with ⟨_, inert⟩ | ⟨_, _, _, _, assigns⟩
    · have self := List.all_eq_true.1 inert statement statement.self_mem_preorder
      rw [construct] at self
      cases self
    · rw [Node.construct, assigns.kind] at construct
      cases construct
  simp [opensNamespace, other]

/-- Reading statements performs their steps one after the other. -/
theorem read_statements (owner : ScopeId) {statements : List Node} {steps : List Step}
    (parsed : statements.map Step.ofStatement? = steps.map some)
    (enough : forall statement, statement ∈ statements -> statement.tree.height <= height)
    (stack : state.stack = [bound]) :
    ∃ after, statements.foldl (readStatement owner (read owner height)) (state, false) =
        (after, false) ∧ after.stack = [steps.foldl bindStep bound] ∧
      ∃ added, after.stamps = added ++ state.stamps ∧
        forall entry, entry ∈ added -> ∃ statement ∈ statements, entry.1 ∈ statement.preorder := by
  induction statements generalizing state bound steps with
  | nil =>
      cases steps with
      | nil => exact ⟨state, rfl, stack, [], rfl, fun _ member => nomatch member⟩
      | cons step rest => cases parsed
  | cons statement statements inductionHypothesis =>
      cases steps with
      | nil => cases parsed
      | cons step steps =>
          obtain ⟨first, others⟩ := List.cons.inj parsed
          have performed := read_statement owner first
            (enough statement (List.mem_cons_self ..)) stack
          obtain ⟨after, read, afterStack, later, laterStamps, laterEntries⟩ :=
            inductionHypothesis others
              (fun other member => enough other (List.mem_cons_of_mem _ member)) performed.stack
          obtain ⟨added, stamps, entries, _⟩ := performed.stamps
          refine ⟨after, ?_, afterStack, later ++ added, ?_, ?_⟩
          · rw [List.foldl_cons, readStatement, opensNamespace_eq_false first,
              if_neg Bool.false_ne_true]
            exact read
          · rw [laterStamps, stamps, List.append_assoc]
          · intro entry member
            rcases List.mem_append.1 member with isLater | isAdded
            · obtain ⟨other, otherMember, below⟩ := laterEntries entry isLater
              exact ⟨other, List.mem_cons_of_mem _ otherMember, below⟩
            · exact ⟨statement, List.mem_cons_self .., (entries entry isAdded).1⟩

/-- The nodes of different statements have different keys. -/
theorem key_ne_of_split {root : Node} {before after : List Node}
    (distinct : KeysDistinct [root]) (split : root.namedChildren = before ++ statement :: after)
    {other node inner : Node} (follows : other ∈ after) (inOther : node ∈ other.preorder)
    (inStatement : inner ∈ statement.preorder) : node.key ≠ inner.key := by
  have apart : root.children.Pairwise fun first second =>
      List.Disjoint (first.preorder.map Node.key) (second.preorder.map Node.key) := by
    unfold KeysDistinct at distinct
    rw [nodesOf_singleton, Node.preorder_eq_cons, List.map_cons, List.nodup_cons, List.map_flatMap,
      List.nodup_flatMap] at distinct
    exact distinct.2.2
  have named : root.namedChildren.Sublist root.children := List.filter_sublist.map _
  have pairs := apart.sublist named
  rw [split, List.pairwise_append, List.pairwise_cons] at pairs
  intro same
  refine pairs.2.1.1 other follows (List.mem_map_of_mem inStatement) ?_
  rw [← same]
  exact List.mem_map_of_mem inOther

/-- A stamp is found behind stamps of nodes with other keys. -/
theorem find?_stamps {later added earlier : List (Node × Table String (Binding Node))}
    {node : Node} {store : Table String (Binding Node)}
    (others : forall entry, entry ∈ later -> entry.1.key ≠ node.key)
    (stamped : ∃ entry, entry ∈ added ∧ entry.1 = node)
    (same : forall entry, entry ∈ added -> entry.1.key = node.key -> entry.2 = store) :
    ((later ++ (added ++ earlier)).find? fun entry => entry.1 == node).map Prod.snd =
      some store := by
  have missed : (later.find? fun entry => entry.1 == node) = none :=
    List.find?_eq_none.2 fun entry member => fun equal => others entry member (of_decide_eq_true equal)
  have found : (added.find? fun entry => entry.1 == node).isSome = true := by
    obtain ⟨entry, member, rfl⟩ := stamped
    exact List.find?_isSome.2 ⟨entry, member, decide_eq_true rfl⟩
  obtain ⟨entry, isFirst⟩ := Option.isSome_iff_exists.1 found
  rw [List.find?_append, missed, Option.none_or, List.find?_append, isFirst, Option.some_or,
    Option.map_some]
  have sameKey := List.find?_some isFirst
  exact congrArg some
    (same entry (List.mem_of_find?_eq_some isFirst) (of_decide_eq_true sameKey))

namespace StraightLine

variable {rules : RuleSet} {root : Node} {steps : List Step}

/-- Every step is the step of a statement. -/
theorem exists_statement (line : StraightLine rules root steps) {step : Step}
    (member : step ∈ steps) :
    ∃ statement, statement ∈ root.namedChildren ∧ Step.ofStatement? statement = some step := by
  have listed : some step ∈ root.namedChildren.map Step.ofStatement? := by
    rw [line.statements]
    exact List.mem_map_of_mem member
  exact List.mem_map.1 listed

/-- Every assignment of the steps is a statement of the file. -/
theorem assigns_of_mem (line : StraightLine rules root steps) {name : String} {node value : Node}
    (member : Step.assignment name node value ∈ steps) :
    ∃ statement left, statement ∈ root.namedChildren ∧ left.text = name ∧
      Assigns statement node left value := by
  obtain ⟨statement, inside, parsed⟩ := line.exists_statement member
  rcases Step.cases_ofStatement? parsed with ⟨same, _⟩ | ⟨other, left, right, same, assigns⟩
  · cases same
  · cases same
    exact ⟨statement, left, inside, rfl, assigns⟩

/-- What a step evaluates binds nothing and stands in the file. -/
theorem value_of_mem (line : StraightLine rules root steps) {step : Step} (member : step ∈ steps) :
    isInert step.value = true ∧ step.value.Inside root := by
  obtain ⟨statement, inside, parsed⟩ := line.exists_statement member
  have inRoot := Node.Inside.of_mem_namedChildren inside
  rcases Step.cases_ofStatement? parsed with ⟨rfl, inert⟩ | ⟨node, left, value, rfl, assigns⟩
  · exact ⟨inert, inRoot⟩
  · exact ⟨assigns.valueInert, (Node.Inside.of_child? assigns.valueFound).trans
      ((Node.Inside.of_mem_namedChildren assigns.node_mem).trans inRoot)⟩

/-- The nodes of the steps are nodes of the file. -/
theorem mem_nodesOf_of_assignment (line : StraightLine rules root steps) {name : String}
    {node value : Node} (member : Step.assignment name node value ∈ steps) :
    node ∈ nodesOf [root] := by
  obtain ⟨statement, left, inside, _, assigns⟩ := line.assigns_of_mem member
  rw [nodesOf_singleton]
  exact ((Node.Inside.of_mem_namedChildren assigns.node_mem).trans
    (Node.Inside.of_mem_namedChildren inside)).mem_preorder

/-- What a step holds is a node of the file. -/
theorem mem_nodesOf_of_holds (line : StraightLine rules root steps) {step : Step} {node : Node}
    (member : step ∈ steps) (holds : step.Holds node) : node ∈ nodesOf [root] := by
  cases holds with
  | value beneath =>
      rw [nodesOf_singleton]
      exact (Node.Inside.of_mem_preorder beneath.mem_preorder
        (line.value_of_mem member).2).mem_preorder
  | assignment => exact line.mem_nodesOf_of_assignment member

/-- A key belongs to one assignment. -/
theorem assignment_unique (line : StraightLine rules root steps) {name other : String}
    {node same value right : Node} (first : Step.assignment name node value ∈ steps)
    (second : Step.assignment other same right ∈ steps) (key : node.key = same.key) :
    name = other ∧ value = right := by
  cases line.distinct.eq_of_key_eq (line.mem_nodesOf_of_assignment first)
    (line.mem_nodesOf_of_assignment second) key
  obtain ⟨_, left, _, rfl, firstAssigns⟩ := line.assigns_of_mem first
  obtain ⟨_, target, _, rfl, secondAssigns⟩ := line.assigns_of_mem second
  have targets := firstAssigns.leftFound.symm.trans secondAssigns.leftFound
  have values := firstAssigns.valueFound.symm.trans secondAssigns.valueFound
  cases targets
  cases values
  exact ⟨rfl, rfl⟩

end StraightLine

/-- What a step evaluates stands in the bindings of the steps before it. -/
theorem StraightLine.storeOf? {rules : RuleSet} {root part : Node} {steps done rest : List Step}
    (line : StraightLine rules root steps) (split : steps = done ++ step :: rest)
    (beneath : part.Beneath step.value) :
    (readFiles owner [root]).storeOf? part = some (bindings owner done) := by
  have parsed := line.statements
  rw [split, List.map_append, List.map_cons] at parsed
  obtain ⟨before, others, namedEq, parsedBefore, parsedOthers⟩ := List.map_eq_append_iff.1 parsed
  obtain ⟨statement, after, rfl, parsedStep, parsedAfter⟩ := List.map_eq_cons_iff.1 parsedOthers
  obtain ⟨height, heightEq⟩ : ∃ height, root.tree.height = height + 1 :=
    ⟨root.tree.height - 1, by have := root.tree.height_pos; omega⟩
  have enough : forall statement, statement ∈ root.namedChildren ->
      statement.tree.height <= height := by
    intro statement member
    have lower := (Node.Inside.of_mem_namedChildren member).lower
    omega
  rw [namedEq] at enough
  let start : State := State.stampHere ⟨[superglobals owner], []⟩ root
  have started : start.stack = [superglobals owner] := rfl
  obtain ⟨first, readBefore, firstStack, _⟩ := read_statements owner parsedBefore
    (fun other member => enough other (List.mem_append_left _ member)) started
  have performed := read_statement owner parsedStep
    (enough statement (List.mem_append_right _ (List.mem_cons_self ..))) firstStack
  obtain ⟨last, readAfter, _, later, laterStamps, laterEntries⟩ :=
    read_statements owner parsedAfter
      (fun other member => enough other (List.mem_append_right _ (List.mem_cons_of_mem _ member)))
      performed.stack
  have whole : readFiles owner [root] = last := by
    show readFile owner _ root = _
    rw [readFile, heightEq, Dictionary.read, readNode, line.program]
    simp only
    rw [readProgram, namedEq, List.foldl_append, List.foldl_cons]
    show (if Prod.snd (List.foldl _ (readStatement owner _ (List.foldl _ (start, false) before)
      statement) after) = true then _ else _) = _
    rw [readBefore, readStatement, opensNamespace_eq_false parsedStep, if_neg Bool.false_ne_true,
      readAfter]
    rfl
  obtain ⟨added, stamps, entries, complete⟩ := performed.stamps
  obtain ⟨entry, entryMember, entryEq⟩ := complete part beneath
  have inStatement : part ∈ statement.preorder := entryEq ▸ (entries entry entryMember).1
  rw [whole, State.storeOf?, laterStamps, stamps]
  refine find?_stamps ?_ ⟨entry, entryMember, entryEq⟩ ?_
  · intro other member
    obtain ⟨otherStatement, follows, below⟩ := laterEntries other member
    exact key_ne_of_split line.distinct namedEq follows below inStatement
  · intro other member sameKey
    have occurs : forall node, node ∈ statement.preorder -> node ∈ nodesOf [root] := by
      intro node below
      rw [nodesOf_singleton]
      refine (Node.Inside.of_mem_preorder below (Node.Inside.of_mem_namedChildren ?_)).mem_preorder
      rw [namedEq]
      exact List.mem_append_right _ (List.mem_cons_self ..)
    have same := line.distinct.eq_of_key_eq (occurs _ (entries other member).1)
      (occurs _ inStatement) sameKey
    exact (entries other member).2 (same ▸ beneath.mem_preorder)

end PhpTaint.Flow.Forward
