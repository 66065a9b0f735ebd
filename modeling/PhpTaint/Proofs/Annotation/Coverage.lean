import PhpTaint.Proofs.Annotation.Refinement
import PhpTaint.Proofs.Syntax.Named

/-!
# What annotation covers

Annotation does not go to every part of a tree. A declaration is followed into
its parameters and body, an assignment into its two sides, the declaration of a
static variable into the value; the parts of a global declaration and the
variables that a closure captures are stamped and not entered. `Noted` lists what
is stamped in this way, and exactly these nodes have a scope afterwards.
-/

namespace PhpTaint.Annotation

open Scopes Syntax Outcome Dictionary

/-- The parts of a node that annotation stamps and does not enter. -/
def markedParts (node : Node) : List Node :=
  match node.construct with
  | .closure => capturedVariables node
  | .globalDeclaration => node.namedChildren
  | .staticVariable => ((node.child? "name").filter Node.isVariable).toList
  | _ => []

/-- A node that is stamped when a file is annotated: annotation comes to it, or
marks it as a part of a node that it comes to. -/
def Noted (root node : Node) : Prop :=
  ∃ host, Relation.ReflTransGen (fun outer inner => inner ∈ walkedParts outer) root host ∧
    (node = host ∨ node ∈ markedParts host)

/-- What is stamped is the root, a part that it marks, or stamped in a part that
annotation goes on to. -/
theorem noted_iff {root node : Node} :
    Noted root node ↔
      node = root ∨ node ∈ markedParts root ∨ ∃ part ∈ walkedParts root, Noted part node := by
  constructor
  · rintro ⟨host, walked, found⟩
    rcases Relation.ReflTransGen.cases_head walked with rfl | ⟨part, member, rest⟩
    · exact found.imp_right Or.inl
    · exact Or.inr (Or.inr ⟨part, member, host, rest, found⟩)
  · rintro (rfl | marked | ⟨part, member, host, walked, found⟩)
    · exact ⟨node, .refl, Or.inl rfl⟩
    · exact ⟨root, .refl, Or.inr marked⟩
    · exact ⟨host, .head member walked, found⟩

namespace Dictionary

/-- A reading stamps exactly the nodes that are said. -/
def Notes (before after : State) (added : Node -> Prop) : Prop :=
  forall node, node ∈ after.stamps.map Prod.fst ↔ node ∈ before.stamps.map Prod.fst ∨ added node

namespace Notes

variable {before middle after : State} {added further : Node -> Prop}

/-- A reading that leaves the stamps alone notes nothing. -/
theorem nothing {after : State} (same : after.stamps = before.stamps) :
    Notes before after fun _ => False := by
  intro node
  rw [same, or_false]

/-- A stamp notes the stamped node. -/
theorem stamp (state : State) (marked : Node) (store : Store) :
    Notes state (state.stamp marked store) (· = marked) := by
  intro node
  rw [State.stamp, List.map_cons, List.mem_cons]
  exact or_comm

/-- What is noted in two stretches is noted in both together. -/
theorem trans (first : Notes before middle added) (second : Notes middle after further) :
    Notes before after fun node => added node ∨ further node := by
  intro node
  rw [second node, first node, or_assoc]

/-- What is noted may be described in other words. -/
theorem congr (notes : Notes before after added)
    (same : forall node, added node ↔ further node) : Notes before after further := by
  intro node
  rw [notes node, same node]

/-- A change of the stack between two readings. -/
theorem resume {other : State} (notes : Notes other after added)
    (same : other.stamps = before.stamps) : Notes before after added := by
  intro node
  rw [notes node, same]

/-- A change of the stack after a reading. -/
theorem settle {other : State} (notes : Notes before middle added)
    (same : other.stamps = middle.stamps) : Notes before other added := by
  intro node
  rw [same]
  exact notes node

/-- One part after the other. -/
theorem foldl {τ ι : Type} (view : τ -> State) {step : τ -> ι -> τ} {parts : List ι}
    {stamped : ι -> Node -> Prop}
    (each : forall part, part ∈ parts -> forall progress,
      Notes (view progress) (view (step progress part)) (stamped part)) (progress : τ) :
    Notes (view progress) (view (parts.foldl step progress))
      fun node => ∃ part ∈ parts, stamped part node := by
  induction parts generalizing progress with
  | nil =>
      refine (nothing rfl).congr fun node => ?_
      simp
  | cons part rest inductionHypothesis =>
      have first := each part (List.mem_cons_self ..) progress
      have others := inductionHypothesis
        (fun other member => each other (List.mem_cons_of_mem _ member)) (step progress part)
      refine (first.trans others).congr fun node => ?_
      simp

end Notes

/-- A reading of the parts of a node that stamps what is noted in them. -/
def Attentive (read : Reading) (node : Node) : Prop :=
  forall part, part.tree.height < node.tree.height -> forall state,
    Notes state (read part state) (Noted part)

section Rules

variable {owner : ScopeId} {read : Reading} {node : Node}

/-- An attentive reading notes what a child is to note. -/
theorem Attentive.of_mem (attentive : Attentive read node) {part : Node}
    (member : part ∈ node.namedChildren) (state : State) :
    Notes state (read part state) (Noted part) :=
  attentive part
    (Node.height_lt_of_mem_children (Node.mem_children_of_mem_namedChildren member)) state

/-- Reading the children notes what is to be noted in them. -/
theorem readChildren_notes (attentive : Attentive read node) (state : State) :
    Notes state (readChildren read node state) fun other =>
      ∃ part ∈ node.namedChildren, Noted part other :=
  Notes.foldl id (fun _ member progress => attentive.of_mem member progress) state

/-- A labelled part is read and noted if it is there. -/
theorem readPart_notes (attentive : Attentive read node) (label : String) (state : State) :
    Notes state (readPart read node state label) fun other =>
      ∃ part ∈ (node.child? label).toList, Noted part other := by
  unfold readPart
  cases found : node.child? label with
  | none =>
      refine (Notes.nothing rfl).congr fun other => ?_
      simp
  | some part =>
      have inside := Node.height_lt_of_mem_children (Node.mem_children_of_child? found)
      refine (attentive part inside state).congr fun other => ?_
      simp

/-- Reading a body notes the node itself and what is to be noted in the parts. -/
theorem readInside_notes (attentive : Attentive read node) (store : Store) (labels : List String)
    (state : State) :
    Notes state (readInside read node store labels state) fun other =>
      other = node ∨ ∃ label ∈ labels, ∃ part ∈ (node.child? label).toList, Noted part other := by
  have parts := Notes.foldl id
    (fun label (_ : label ∈ labels) current => readPart_notes attentive label current)
    ((state.stamp node store).enter store)
  refine ((Notes.stamp state node store).trans (Notes.resume ?_ rfl)).congr fun _ => Iff.rfl
  exact parts.settle rfl

/-- Entering a namespace notes its definition. -/
theorem enterNamespace_notes (owner : ScopeId) (node : Node) (state : State) :
    Notes state (enterNamespace owner node state) (· = node) :=
  (Notes.stamp state node _).settle rfl

/-- A namespace without a body has nothing noted in it but itself. -/
theorem noted_of_opensNamespace {statement other : Node}
    (opens : opensNamespace statement = true) : Noted statement other ↔ other = statement := by
  simp only [opensNamespace, Bool.and_eq_true, decide_eq_true_eq, Option.isNone_iff_eq_none] at opens
  rw [noted_iff]
  simp [walkedParts, markedParts, opens.1, opens.2]

/-- A statement is noted whether or not a namespace is open. -/
theorem readStatement_notes (owner : ScopeId) (attentive : Attentive read node)
    {statement : Node} (member : statement ∈ node.namedChildren) (progress : State × Bool) :
    Notes progress.1 (readStatement owner read progress statement).1 (Noted statement) := by
  unfold readStatement
  split
  · rename_i opens
    refine Notes.congr ?_ fun other => (noted_of_opensNamespace opens).symm
    refine (enterNamespace_notes owner statement _).resume ?_
    cases progress.2 <;> rfl
  · exact attentive.of_mem member progress.1

/-- A program notes itself and what is to be noted in its statements. -/
theorem readProgram_notes (owner : ScopeId) (attentive : Attentive read node) (state : State) :
    Notes state (readProgram owner read node state) fun other =>
      other = node ∨ ∃ part ∈ node.namedChildren, Noted part other := by
  have statements := Notes.foldl Prod.fst
    (fun _ member progress => readStatement_notes owner attentive member progress)
    (state.stampHere node, false)
  refine ((Notes.stamp state node state.top).trans statements).settle ?_
  unfold readProgram
  simp only
  split <;> rfl

/-- A namespace notes its definition and what is to be noted in the body. -/
theorem readNamespace_notes (owner : ScopeId) (attentive : Attentive read node) (state : State) :
    Notes state (readNamespace owner read node state) fun other =>
      other = node ∨ ∃ part ∈ (node.child? "body").toList, Noted part other :=
  ((enterNamespace_notes owner node state).trans (readPart_notes attentive "body" _)).settle rfl

/-- A captured variable is noted. -/
theorem capture_notes (captured : Node) (progress : State × Store) :
    Notes progress.1 (capture progress captured).1 (· = captured) :=
  Notes.stamp progress.1 captured progress.1.top

/-- A closure notes what it captures, itself and what is to be noted in its parts. -/
theorem readClosure_notes (owner : ScopeId) (attentive : Attentive read node) (state : State) :
    Notes state (readClosure owner read node state) fun other =>
      other ∈ capturedVariables node ∨ other = node ∨
        ∃ label ∈ ["parameters", "body"], ∃ part ∈ (node.child? label).toList,
          Noted part other := by
  have captured := Notes.foldl Prod.fst
    (fun part (_ : part ∈ capturedVariables node) progress => capture_notes part progress)
    (state, bindParameters (superglobals owner) node)
  refine (captured.trans (readInside_notes attentive _ ["parameters", "body"] _)).congr ?_
  intro other
  simp

/-- A property element is a plain node, so its parts are what is noted in it. -/
theorem noted_of_propertyElement {element other : Node}
    (kind : element.kind = "property_element") :
    Noted element other ↔ other = element ∨ ∃ part ∈ element.namedChildren, Noted part other := by
  have construct : element.construct = .plain := by
    rw [Node.construct, kind]
    rfl
  rw [noted_iff]
  simp [walkedParts, markedParts, construct]

/-- The element of a property is read like any other node. -/
theorem readPropertyElement_notes (attentive : Attentive read node) {element : Node}
    (member : element ∈ node.namedChildren) (state : State) :
    Notes state (readPropertyElement read state element) (Noted element) := by
  unfold readPropertyElement
  split
  · rename_i kind
    have lower := Node.height_lt_of_mem_children (Node.mem_children_of_mem_namedChildren member)
    have inner : Attentive read element := fun part below => attentive part (by omega)
    refine Notes.congr ?_ fun other => (noted_of_propertyElement kind).symm
    exact (Notes.stamp state element state.top).trans (readChildren_notes inner _)
  · exact attentive.of_mem member state

/-- A property declaration notes itself and what is to be noted in its elements. -/
theorem readProperty_notes (attentive : Attentive read node) (state : State) :
    Notes state (readProperty read node state) fun other =>
      other = node ∨ ∃ part ∈ node.namedChildren, Noted part other :=
  (Notes.stamp state node state.top).trans (Notes.foldl id
    (fun _ member current => readPropertyElement_notes attentive member current) _)

/-- A name of a `global` statement is noted. -/
theorem readGlobalName_notes (owner : ScopeId) (node child : Node) (progress : State × Store) :
    Notes progress.1 (readGlobalName owner node progress child).1 (· = child) :=
  Notes.stamp progress.1 child progress.2

/-- A `global` statement notes its direct children only, whatever stands below them. -/
theorem readGlobal_notes (owner : ScopeId) (node : Node) (state : State) :
    Notes state (readGlobal owner node state) fun other =>
      other ∈ node.namedChildren ∨ other = node := by
  have names := Notes.foldl Prod.fst
    (fun child (_ : child ∈ node.namedChildren) progress =>
      readGlobalName_notes owner node child progress) (state, state.top)
  refine (names.trans ((Notes.stamp _ node _).resume rfl)).congr fun other => ?_
  simp

/-- An `unset` notes what is to be noted in its children before it notes itself. -/
theorem readUnset_notes (attentive : Attentive read node) (state : State) :
    Notes state (readUnset read node state) fun other =>
      (∃ part ∈ node.namedChildren, Noted part other) ∨ other = node :=
  (readChildren_notes attentive state).trans ((Notes.stamp _ node _).resume rfl)

/-- An assignment notes what is to be noted in its two sides before it notes itself. -/
theorem readAssignment_notes (attentive : Attentive read node) (state : State) :
    Notes state (readAssignment read node state) fun other =>
      ((∃ part ∈ (node.child? "right").toList, Noted part other) ∨
        ∃ part ∈ (node.child? "left").toList, Noted part other) ∨ other = node :=
  ((readPart_notes attentive "right" state).trans (readPart_notes attentive "left" _)).trans
    ((Notes.stamp _ node _).resume rfl)

/-- Every other construct notes itself and what is to be noted in its children. -/
theorem readPlain_notes (attentive : Attentive read node) (state : State) :
    Notes state (readPlain read node state) fun other =>
      other = node ∨ ∃ part ∈ node.namedChildren, Noted part other :=
  (Notes.stamp state node state.top).trans (readChildren_notes attentive _)

/-- A loop notes itself and what is to be noted in all its children. -/
theorem readIteration_notes (attentive : Attentive read node) (state : State) :
    Notes state (readIteration read node state) fun other =>
      other = node ∨ ∃ part ∈ node.namedChildren, Noted part other := by
  have plain := readPlain_notes attentive state
  unfold readPlain at plain
  unfold readIteration
  rcases named : node.namedChildren with _ | ⟨iterated, _ | ⟨binding, body⟩⟩
  · rw [named] at plain
    exact plain
  · rw [named] at plain
    exact plain
  · have part {child : Node} (member : child ∈ iterated :: binding :: body) (current : State) :
        Notes current (read child current) (Noted child) :=
      attentive.of_mem (named ▸ member) current
    have first := part (List.mem_cons_self ..) (state.stampHere node)
    have second := part (List.mem_cons_of_mem _ (List.mem_cons_self ..))
      (read iterated (state.stampHere node))
    have rest := Notes.foldl id
      (fun child member current =>
        part (List.mem_cons_of_mem _ (List.mem_cons_of_mem _ member)) current)
      ((read binding (read iterated (state.stampHere node))).overwrite
        (define node binding.targets (read binding (read iterated (state.stampHere node))).top))
    refine ((Notes.stamp state node state.top).trans
      ((first.trans second).trans (rest.resume rfl))).congr fun other => ?_
    simp [or_assoc]

/-- A static variable notes its value, its name and itself. -/
theorem readStaticVariable_notes (attentive : Attentive read node) (state : State) :
    Notes state (readStaticVariable read node state) fun other =>
      (∃ part ∈ (node.child? "value").toList, Noted part other) ∨
        other ∈ ((node.child? "name").filter Node.isVariable).toList ∨ other = node := by
  have value := readPart_notes attentive "value" state
  unfold readStaticVariable
  cases node.child? "name" with
  | none =>
      refine (value.trans (Notes.stamp _ node _)).congr fun other => ?_
      simp
  | some name =>
      simp only
      split
      · rename_i isVariable
        refine (value.trans ((Notes.stamp _ name _).trans
          ((Notes.stamp _ node _).resume rfl))).congr fun other => ?_
        simp [Option.filter, isVariable]
      · rename_i isOther
        refine (value.trans (Notes.stamp _ node _)).congr fun other => ?_
        simp [Option.filter, isOther]

/-- Every rule stamps exactly what is noted in a node. -/
theorem readNode_notes (owner : ScopeId) (attentive : Attentive read node) (state : State) :
    Notes state (readNode owner read node state) (Noted node) := by
  have plain (walked : walkedParts node = node.namedChildren) (marked : markedParts node = [])
      {after : State} (notes : Notes state after fun other =>
        other = node ∨ ∃ part ∈ node.namedChildren, Noted part other) :
      Notes state after (Noted node) := by
    refine notes.congr fun other => ?_
    rw [noted_iff, walked, marked]
    simp
  have inside (walked : walkedParts node =
        (node.child? "parameters").toList ++ (node.child? "body").toList)
      (marked : markedParts node = []) (store : Store) :
      Notes state (readInside read node store ["parameters", "body"] state) (Noted node) := by
    refine (readInside_notes attentive store _ state).congr fun other => ?_
    rw [noted_iff, walked, marked]
    simp [or_and_right, exists_or]
  unfold readNode
  cases construct : node.construct with
  | program =>
      exact plain (by simp [walkedParts, construct]) (by simp [markedParts, construct])
        (readProgram_notes owner attentive state)
  | namespaceDefinition =>
      refine (readNamespace_notes owner attentive state).congr fun other => ?_
      rw [noted_iff]
      simp [walkedParts, markedParts, construct]
  | functionDefinition =>
      exact inside (by simp [walkedParts, construct]) (by simp [markedParts, construct]) _
  | methodDeclaration =>
      exact inside (by simp [walkedParts, construct]) (by simp [markedParts, construct]) _
  | closure =>
      refine (readClosure_notes owner attentive state).congr fun other => ?_
      rw [noted_iff]
      simp [walkedParts, markedParts, construct, or_and_right, exists_or, or_left_comm]
  | arrowFunction =>
      exact inside (by simp [walkedParts, construct]) (by simp [markedParts, construct]) _
  | classDeclaration =>
      refine (readInside_notes attentive _ ["body"] state).congr fun other => ?_
      rw [noted_iff]
      simp [walkedParts, markedParts, construct]
  | propertyDeclaration =>
      exact plain (by simp [walkedParts, construct]) (by simp [markedParts, construct])
        (readProperty_notes attentive state)
  | globalDeclaration =>
      refine (readGlobal_notes owner node state).congr fun other => ?_
      rw [noted_iff]
      simp [walkedParts, markedParts, construct, or_comm]
  | unset =>
      refine plain (by simp [walkedParts, construct]) (by simp [markedParts, construct]) ?_
      exact (readUnset_notes attentive state).congr fun other => or_comm
  | assignment =>
      refine (readAssignment_notes attentive state).congr fun other => ?_
      rw [noted_iff]
      simp [walkedParts, markedParts, construct, or_and_right, exists_or, or_comm]
  | iteration =>
      exact plain (by simp [walkedParts, construct]) (by simp [markedParts, construct])
        (readIteration_notes attentive state)
  | staticVariable =>
      refine (readStaticVariable_notes attentive state).congr fun other => ?_
      rw [noted_iff]
      simp only [walkedParts, markedParts, construct]
      rw [or_comm, or_assoc, or_left_comm]
  | constantDeclaration | call | plain =>
      exact plain (by simp [walkedParts, construct]) (by simp [markedParts, construct])
        (readPlain_notes attentive state)

end Rules

/-- By induction on the height: reading a tree stamps exactly what is noted in
it. -/
theorem read_notes (owner : ScopeId) {height : Nat} {node : Node}
    (bound : node.tree.height <= height) (state : State) :
    Notes state (read owner height node state) (Noted node) := by
  induction height generalizing node state with
  | zero =>
      have positive := node.tree.height_pos
      omega
  | succ height inductionHypothesis =>
      exact readNode_notes owner (fun part lower current => inductionHypothesis (by omega) current)
        state

/-- A file notes what is to be noted in its root. -/
theorem readFile_notes (owner : ScopeId) (root : Node) (state : State) :
    Notes state (readFile owner state root) (Noted root) :=
  (read_notes owner (Nat.le_refl root.tree.height) _).resume rfl

/-- Reading files stamps exactly what is noted in one of them. -/
theorem readFiles_notes (owner : ScopeId) (roots : List Node) :
    Notes ⟨[], []⟩ (readFiles owner roots) fun node => ∃ root ∈ roots, Noted root node :=
  Notes.foldl id (fun root (_ : root ∈ roots) state => readFile_notes owner root state) ⟨[], []⟩

/-- A node has a dictionary exactly if a node of its key was stamped. -/
theorem State.storeOf?_isSome {state : State} {node : Node} :
    (state.storeOf? node).isSome = true ↔
      ∃ other ∈ state.stamps.map Prod.fst, other.key = node.key := by
  rw [State.storeOf?, Option.isSome_map, List.find?_isSome]
  constructor
  · rintro ⟨entry, member, same⟩
    exact ⟨entry.1, List.mem_map_of_mem member, of_decide_eq_true same⟩
  · rintro ⟨_, member, same⟩
    obtain ⟨entry, inside, rfl⟩ := List.mem_map.1 member
    exact ⟨entry, inside, decide_eq_true same⟩

end Dictionary

/-- After files have been annotated, a node has a scope exactly if it is noted in
one of them, or shares its key with a node that is. -/
theorem scopeOf_iff_noted {roots : List Node} {ends : List ScopeId} {annotator : Annotator}
    (annotated : roots.mapM annotateProgram Annotator.start = .ok ends annotator) (node : Node) :
    (∃ scope, annotator.registry.scopeOf annotator.globalScope node = .ok scope) ↔
      ∃ root ∈ roots, ∃ other, Noted root other ∧ other.key = node.key := by
  have located := (annotated_inStep annotated).scopeOf node
  have stamped : ((readFiles annotator.globalScope roots).storeOf? node).isSome = true ↔
      ∃ root ∈ roots, ∃ other, Noted root other ∧ other.key = node.key := by
    rw [State.storeOf?_isSome]
    constructor
    · rintro ⟨other, member, same⟩
      rcases (readFiles_notes _ roots other).1 member with absurdity | ⟨root, inside, noted⟩
      · cases absurdity
      · exact ⟨root, inside, other, noted, same⟩
    · rintro ⟨root, inside, other, noted, same⟩
      exact ⟨other, (readFiles_notes _ roots other).2 (Or.inr ⟨root, inside, noted⟩), same⟩
  rw [← stamped]
  cases found : (readFiles annotator.globalScope roots).storeOf? node with
  | some store =>
      rw [found] at located
      obtain ⟨scope, scopeEq, -⟩ := located
      exact ⟨fun _ => rfl, fun _ => ⟨scope, scopeEq⟩⟩
  | none =>
      rw [found] at located
      constructor
      · rintro ⟨scope, scopeEq⟩
        rw [located] at scopeEq
        cases scopeEq
      · intro absurdity
        cases absurdity

/-- A file of which annotation goes on to all named children is noted as a
whole. -/
theorem noted_of_walksAll {root node : Node} (all : root.preorder.all walksAll = true)
    (beneath : node.Beneath root) : Noted root node := by
  refine ⟨node, ?_, Or.inl rfl⟩
  induction beneath with
  | refl => exact .refl
  | @tail outer inner before member inductionHypothesis =>
      refine inductionHypothesis.tail ?_
      have walks := List.all_eq_true.1 all outer (Node.Beneath.mem_preorder before)
      rw [walkedParts_of_walksAll walks]
      exact member

/-- All variables and calls that are reached from a file by named children have a
scope after annotation exactly if each of them is noted, or shares its key with a
node that is. -/
theorem variables_and_calls_annotated_iff {roots : List Node} {ends : List ScopeId}
    {annotator : Annotator}
    (annotated : roots.mapM annotateProgram Annotator.start = .ok ends annotator) (root : Node) :
    (forall node : Node, node.Beneath root -> node.isVariable = true ∨ node.construct = .call ->
        ∃ scope, annotator.registry.scopeOf annotator.globalScope node = .ok scope) ↔
      forall node : Node, node.Beneath root -> node.isVariable = true ∨ node.construct = .call ->
        ∃ file ∈ roots, ∃ other, Noted file other ∧ other.key = node.key := by
  constructor
  · intro covered node beneath kind
    exact (scopeOf_iff_noted annotated node).1 (covered node beneath kind)
  · intro covered node beneath kind
    exact (scopeOf_iff_noted annotated node).2 (covered node beneath kind)

/-- The file `<?php f($x);`. -/
def callingFile : Node :=
  ⟨⟨"calling.php", "<?php f($x);".toUTF8⟩,
    .node "program" true 0 12 "" [
      .node "expression_statement" true 6 12 "" [
        .node "function_call_expression" true 6 11 "" [
          .node "name" true 6 7 "function" [],
          .node "arguments" true 7 11 "arguments" [
            .node "argument" true 8 10 "" [.node "variable_name" true 8 10 "" []]]]]]⟩

/-- The call and the variable of `callingFile` have scopes. -/
theorem variables_and_calls_annotated_iff_calling :
    ∃ ends annotator, [callingFile].mapM annotateProgram Annotator.start = .ok ends annotator ∧
      forall node, node.Beneath callingFile ->
        node.isVariable = true ∨ node.construct = .call ->
          ∃ scope, annotator.registry.scopeOf annotator.globalScope node = .ok scope := by
  have ran : passes (fun _ _ => true)
      ([callingFile].mapM annotateProgram Annotator.start) = true := by decide +kernel
  obtain ⟨ends, annotator, outcome, -⟩ := exists_of_passes ran
  refine ⟨ends, annotator, outcome, (variables_and_calls_annotated_iff outcome callingFile).2 ?_⟩
  intro node beneath _
  exact ⟨callingFile, List.mem_singleton_self _, node,
    noted_of_walksAll (by decide +kernel) beneath, rfl⟩

/-- The call in `dynamicFile`. -/
def dynamicCall : Tree :=
  .node "function_call_expression" true 30 48 "" [
    .node "name" true 30 36 "function" [],
    .node "arguments" true 36 48 "arguments" [
      .node "argument" true 37 47 "" [
        .node "subscript_expression" true 37 47 "" [
          .node "variable_name" true 37 42 "" [], .node "string" true 43 46 "" []]]]]

/-- The file `<?php function f() \x7b global $\x7bsystem($_GET['c'])\x7d; \x7d`, in which a
global declaration computes the name that it declares. -/
def dynamicFile : Node :=
  ⟨⟨"dynamic.php", "<?php function f() \x7b global $\x7bsystem($_GET['c'])\x7d; \x7d".toUTF8⟩,
    .node "program" true 0 52 "" [
      .node "function_definition" true 6 52 "" [
        .node "name" true 15 16 "name" [],
        .node "formal_parameters" true 16 18 "parameters" [],
        .node "compound_statement" true 19 52 "body" [
          .node "global_declaration" true 21 50 "" [
            .node "dynamic_variable_name" true 28 49 "" [dynamicCall]]]]]⟩

/-- The call in `dynamicFile` is reached by named children and has no scope,
although the file is annotated without a fault. -/
theorem call_in_global_not_annotated :
    let call := dynamicFile.withTree dynamicCall
    ∃ ends annotator, [dynamicFile].mapM annotateProgram Annotator.start = .ok ends annotator ∧
      call.Beneath dynamicFile ∧ call.construct = .call ∧
        annotator.registry.scopeOf annotator.globalScope call =
          .error (.unannotated call.describe) := by
  intro call
  have ran : passes (fun _ annotator =>
      match annotator.registry.scopeOf annotator.globalScope call with
      | .error (.unannotated text) => text = call.describe
      | _ => false) ([dynamicFile].mapM annotateProgram Annotator.start) = true := by
    decide +kernel
  obtain ⟨ends, annotator, outcome, missing⟩ := exists_of_passes ran
  refine ⟨ends, annotator, outcome, ?_, by decide, ?_⟩
  · refine .head (List.Mem.head _) (.head (List.Mem.tail _ (List.Mem.tail _ (List.Mem.head _))) ?_)
    exact .head (List.Mem.head _) (.head (List.Mem.head _) (.single (List.Mem.head _)))
  · split at missing
    · rename_i text failed
      rw [failed, of_decide_eq_true missing]
    · cases missing

end PhpTaint.Annotation
