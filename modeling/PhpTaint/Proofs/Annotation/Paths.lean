import PhpTaint.Proofs.Annotation.Coverage
import PhpTaint.Proofs.Scopes.Denotation
import PhpTaint.Proofs.Syntax.Parents
import PhpTaint.Proofs.Syntax.Targets

/-!
# Where nodes stand

The namespaces around a node are read off the files without any scope. Going down
from a file, only a namespace definition changes the path: one with a body for the
body, and one without a body, as a statement of a file, for the statements after it
up to the next such one. In files of distinct nodes every node that annotation comes
to stands at one path.
-/

namespace PhpTaint.Annotation

open Scopes Syntax

namespace Lexical

/-- The path inside a namespace definition. -/
def namespacePath (path : Path) (node : Node) : Path :=
  match node.child? "name" with
  | some name => path ++ (segmentsOf name.text.toList).map Text.lower
  | none => path

/-- The statements of a file, each with its path. A namespace definition without a
body stands outside, and the statements after it inside. -/
def placedStatements (outer here : Path) : List Node -> List (Path × Node)
  | [] => []
  | statement :: rest =>
      if opensNamespace statement then
        (outer, statement) :: placedStatements outer (namespacePath outer statement) rest
      else (here, statement) :: placedStatements outer here rest

/-- The parts of a node that annotation goes on to, each with its path. -/
def placedParts (path : Path) (node : Node) : List (Path × Node) :=
  match node.construct with
  | .program => placedStatements path path node.namedChildren
  | .namespaceDefinition => (walkedParts node).map (namespacePath path node, ·)
  | _ => (walkedParts node).map (path, ·)

/-- Annotation comes to a node at a path: to a file outside all namespaces, and from
a node to its parts. -/
inductive Visited (roots : List Node) : Path -> Node -> Prop where
  | file {root : Node} (listed : root ∈ roots) : Visited roots [] root
  | part {path around : Path} {node inner : Node} (outer : Visited roots path node)
      (member : (around, inner) ∈ placedParts path node) : Visited roots around inner

/-- The path at which a node is stamped that annotation comes to at a path. -/
def ownPath (path : Path) (node : Node) : Path :=
  if node.construct = .namespaceDefinition then namespacePath path node else path

/-- A node is stamped at a path: annotation comes to it, or to a node that marks
it. -/
inductive Stamped (roots : List Node) : Path -> Node -> Prop where
  | host {path : Path} {node : Node} (visited : Visited roots path node) :
      Stamped roots (ownPath path node) node
  | marked {path : Path} {host node : Node} (visited : Visited roots path host)
      (member : node ∈ markedParts host) : Stamped roots path node

variable {roots : List Node} {path around : Path} {node part : Node}

/-- The first of some statements, and the path for the others. -/
theorem placedStatements_cons (outer here : Path) (statement : Node) (rest : List Node) :
    placedStatements outer here (statement :: rest) =
      (if opensNamespace statement then outer else here, statement) ::
        placedStatements outer
          (if opensNamespace statement then namespacePath outer statement else here) rest := by
  rw [placedStatements]
  split <;> rfl

/-- Placing statements drops none and keeps their order. -/
theorem map_snd_placedStatements (outer here : Path) (statements : List Node) :
    (placedStatements outer here statements).map Prod.snd = statements := by
  induction statements generalizing here with
  | nil => rfl
  | cons statement rest inductionHypothesis =>
      rw [placedStatements_cons, List.map_cons, inductionHypothesis]

/-- Most constructs leave the path to their parts. -/
theorem placedParts_of_ordinary (path : Path) (notFile : node.construct ≠ .program)
    (notSpace : node.construct ≠ .namespaceDefinition) :
    placedParts path node = (walkedParts node).map (path, ·) := by
  unfold placedParts
  cases construct : node.construct <;> first | rfl | contradiction

/-- Placing parts drops none and keeps their order. -/
theorem map_snd_placedParts (path : Path) (node : Node) :
    (placedParts path node).map Prod.snd = walkedParts node := by
  unfold placedParts
  cases construct : node.construct with
  | program => simp [map_snd_placedStatements, walkedParts, construct]
  | _ => simp [Function.comp_def]

/-- A part that has a place is walked. -/
theorem mem_walkedParts_of_placed (member : (around, part) ∈ placedParts path node) :
    part ∈ walkedParts node := by
  rw [← map_snd_placedParts path node]
  exact List.mem_map_of_mem member

/-- Annotation goes on to children only. -/
theorem mem_children_of_placed (member : (around, part) ∈ placedParts path node) :
    part ∈ node.children := by
  have walked := mem_walkedParts_of_placed member
  have labelled {label : String} (found : part ∈ (node.child? label).toList) :
      part ∈ node.children := Node.mem_children_of_child? (Option.mem_toList.1 found)
  unfold walkedParts at walked
  split at walked
  all_goals first
    | exact labelled walked
    | exact (List.mem_append.1 walked).elim labelled labelled
    | exact Node.mem_children_of_mem_namedChildren walked
    | cases walked

/-- A part stands at one path. -/
theorem placedParts_path_unique (nodup : node.children.Nodup) {other : Path}
    (first : (around, part) ∈ placedParts path node)
    (second : (other, part) ∈ placedParts path node) : around = other := by
  cases construct : node.construct with
  | program =>
      have distinct : node.namedChildren.Nodup := nodup.sublist (List.filter_sublist.map _)
      have parts := map_snd_placedParts path node
      rw [walkedParts_of_walksAll (by simp [walksAll, construct])] at parts
      exact congrArg Prod.fst (List.inj_on_of_nodup_map (parts ▸ distinct) first second rfl)
  | _ =>
      simp only [placedParts, construct, List.mem_map, Prod.mk.injEq] at first second
      obtain ⟨_, _, rfl, rfl⟩ := first
      obtain ⟨_, _, rfl, _⟩ := second
      rfl

namespace Visited

/-- The parts of a construct that opens no namespace are visited where it is. -/
theorem walked (visited : Visited roots path node) (notFile : node.construct ≠ .program)
    (notSpace : node.construct ≠ .namespaceDefinition) (member : part ∈ walkedParts node) :
    Visited roots path part := by
  apply visited.part
  rw [placedParts_of_ordinary path notFile notSpace]
  exact List.mem_map_of_mem member

/-- Annotation goes on to all named children of most constructs. -/
theorem named (visited : Visited roots path node) (all : walksAll node = true)
    (notFile : node.construct ≠ .program) (member : part ∈ node.namedChildren) :
    Visited roots path part := by
  apply visited.walked notFile
  · intro isSpace
    simp [walksAll, isSpace] at all
  · rwa [walkedParts_of_walksAll all]

/-- The parts of a function that annotation goes on to. -/
theorem ofFunction (visited : Visited roots path node)
    (construct : node.construct = .functionDefinition ∨ node.construct = .methodDeclaration ∨
      node.construct = .closure ∨ node.construct = .arrowFunction) :
    forall label, label ∈ ["parameters", "body"] -> forall part, node.child? label = some part ->
      Visited roots path part := by
  intro label listed part found
  have walked : part ∈ walkedParts node := by
    simp only [List.mem_cons, List.not_mem_nil, or_false] at listed
    rcases construct with same | same | same | same <;> rcases listed with rfl | rfl <;>
      simp [walkedParts, same, found]
  rcases construct with same | same | same | same <;>
    exact visited.walked (by simp [same]) (by simp [same]) walked

/-- A visited construct is stamped where it is visited. -/
theorem stamped (visited : Visited roots path node)
    (notSpace : node.construct ≠ .namespaceDefinition) : Stamped roots path node := by
  have stamped := Stamped.host visited
  rwa [ownPath, if_neg notSpace] at stamped

/-- A visited node is to be noted. -/
theorem noted (visited : Visited roots path node) : ∃ root ∈ roots, Noted root node := by
  have walk : ∃ root ∈ roots, Relation.ReflTransGen
      (fun outer inner => inner ∈ walkedParts outer) root node := by
    induction visited with
    | file listed => exact ⟨_, listed, .refl⟩
    | part _ member inductionHypothesis =>
        obtain ⟨root, listed, walk⟩ := inductionHypothesis
        exact ⟨root, listed, walk.tail (mem_walkedParts_of_placed member)⟩
  obtain ⟨root, listed, walk⟩ := walk
  exact ⟨root, listed, node, walk, Or.inl rfl⟩

/-- A visited node is a node of the files. -/
theorem occurs (visited : Visited roots path node) : node ∈ nodesOf roots := by
  induction visited with
  | file listed => exact mem_nodesOf_of_root listed
  | part _ member inductionHypothesis =>
      exact mem_nodesOf_of_mem_children inductionHypothesis (mem_children_of_placed member)

/-- In files of distinct nodes annotation comes to a node at one path. -/
theorem path_unique (nodup : (nodesOf roots).Nodup) (visited : Visited roots path node)
    {other : Path} (again : Visited roots other node) : path = other := by
  induction visited generalizing other with
  | file listed =>
      cases again with
      | file _ => rfl
      | part outer member =>
          have inside := mem_children_of_placed member
          exact absurd inside (not_mem_children_of_root nodup listed outer.occurs)
  | part outer member inductionHypothesis =>
      have inside := mem_children_of_placed member
      cases again with
      | file listed =>
          exact absurd inside (not_mem_children_of_root nodup listed outer.occurs)
      | part otherOuter otherMember =>
          obtain rfl := eq_of_mem_children nodup outer.occurs otherOuter.occurs inside
            (mem_children_of_placed otherMember)
          obtain rfl := inductionHypothesis otherOuter
          exact placedParts_path_unique (nodup_children nodup outer.occurs) member otherMember

/-- The parts of a global declaration are not gone on to. -/
theorem not_global (nodup : (nodesOf roots).Nodup) (visited : Visited roots path node)
    {host : Node} (outer : Visited roots around host)
    (construct : host.construct = .globalDeclaration) : node ∉ host.namedChildren := by
  intro member
  have inside := Node.mem_children_of_mem_namedChildren member
  cases visited with
  | file listed => exact not_mem_children_of_root nodup listed outer.occurs inside
  | part parent walked =>
      obtain rfl := eq_of_mem_children nodup outer.occurs parent.occurs inside
        (mem_children_of_placed walked)
      simp [placedParts, walkedParts, construct] at walked

end Visited

/-- A call that is marked is a part of a global declaration. -/
theorem construct_of_marked_call {host call : Node} (isCall : call.construct = .call)
    (member : call ∈ markedParts host) :
    host.construct = .globalDeclaration ∧ call ∈ host.namedChildren := by
  have notVariable : call.isVariable = true -> False := by
    intro isVariable
    have kind : call.kind = "variable_name" := of_decide_eq_true isVariable
    rw [Node.construct, kind] at isCall
    cases isCall
  unfold markedParts at member
  cases construct : host.construct <;> rw [construct] at member
  case globalDeclaration => exact ⟨rfl, member⟩
  case closure =>
    obtain ⟨clause, _, inClause⟩ := List.mem_flatMap.1 member
    obtain ⟨captured, _, target⟩ := List.mem_flatMap.1 inClause
    exact (notVariable (Node.isVariable_of_mem_targets target)).elim
  case staticVariable =>
    have filtered := Option.mem_toList.1 member
    exact (notVariable (Option.filter_eq_some_iff.1 filtered).2).elim
  all_goals cases member

/-- In files of distinct nodes a call to which annotation comes is stamped at the
path at which it comes to it. -/
theorem Stamped.path_of_call (nodup : (nodesOf roots).Nodup) {call : Node}
    (visited : Visited roots path call) (isCall : call.construct = .call)
    (stamped : Stamped roots around call) : around = path := by
  cases stamped with
  | host again =>
      rw [ownPath, if_neg (by simp [isCall])]
      exact again.path_unique nodup visited
  | marked outer member =>
      obtain ⟨isGlobal, inside⟩ := construct_of_marked_call isCall member
      exact absurd inside (visited.not_global nodup outer isGlobal)

/-- A call that is stamped occurs in the files. -/
theorem Stamped.occurs_of_call {call : Node} (isCall : call.construct = .call)
    (stamped : Stamped roots path call) : call ∈ nodesOf roots := by
  cases stamped with
  | host visited => exact visited.occurs
  | marked outer member =>
      obtain ⟨_, inside⟩ := construct_of_marked_call isCall member
      exact mem_nodesOf_of_mem_children outer.occurs (Node.mem_children_of_mem_namedChildren inside)

end Lexical

end PhpTaint.Annotation
