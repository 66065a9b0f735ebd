import PhpTaint.Proofs.Annotation.InStep

/-!
# Scopes refine dictionaries

Annotation keeps in step with the plain reading of the same files: by induction
on the height over a file, and from one file to the next. A scope is a snapshot,
so what it showed when a node was annotated it still shows when all files have
been read: a lookup at the scope of a node finds what the dictionary of the node
holds.
-/

namespace PhpTaint.Annotation

open Scopes Syntax Outcome Dictionary

variable {nodes : List Node} {owner : ScopeId} {state after : Annotator} {reading : State}

/-- Visiting a tree keeps in step with reading it. -/
theorem visit_follows
    (closed : forall node, node ∈ nodes -> forall part, part ∈ walkedParts node -> part ∈ nodes)
    (height : Nat) : forall node, node ∈ nodes ->
      Follows nodes owner (visit height node) (read owner height node) := by
  induction height with
  | zero =>
      intro node _ state reading after inStep ended
      obtain ⟨-, rfl⟩ := pure_eq_ok.1 ended
      exact inStep
  | succ height inductionHypothesis =>
      intro node member
      exact visitNode_follows closed inductionHypothesis member

/-- The global scope shows the shared variables. -/
theorem shows_owner {registry : Registry Node} (sound : Sound nodes owner registry) :
    Shows registry registry.scopes.size owner (superglobals owner) := by
  obtain ⟨scope, present, _, _, isGlobal⟩ := sound.global
  refine ⟨sound.root_lt, sound.visible_of_ownsSymbols (Registry.kind?_of_scope present) ?_⟩
  rw [Body.ownsSymbols_outline]
  revert isGlobal
  cases scope.body <;> simp [Body.isGlobal, Body.ownsSymbols, Body.symbols?]

/-- Annotating a file keeps in step with reading it. -/
theorem annotateProgram_inStep
    (closed : forall node, node ∈ nodes -> forall part, part ∈ walkedParts node -> part ∈ nodes)
    {root : Node} (member : root ∈ nodes) (inStep : InStep nodes owner state reading)
    {scope : ScopeId} (ended : annotateProgram root state = .ok scope after) :
    InStep nodes owner after (readFile owner reading root) := by
  obtain ⟨_, entered, entering, walking⟩ := bind_eq_ok.1 ended
  obtain rfl := modify_eq_ok.1 entering
  obtain ⟨_, visited, visiting, rest⟩ := bind_eq_ok.1 walking
  have started : InStep nodes owner { state with stack := [state.globalScope] }
      { reading with stack := [superglobals owner] } := by
    refine ⟨inStep.owned, inStep.sound, inStep.limit_le, ?_, inStep.stamps⟩
    show List.Forall₂ _ [state.globalScope] _
    rw [inStep.owned]
    exact .cons (shows_owner inStep.sound) .nil
  have walked := visit_follows closed root.tree.height root member _ _ _ started visiting
  obtain ⟨_, _, got, rest⟩ := bind_eq_ok.1 rest
  obtain ⟨rfl, rfl⟩ := get_eq_ok.1 got
  rcases stack : visited.stack with _ | ⟨top, _ | ⟨next, outer⟩⟩
  · rw [stack] at rest
    exact (throw_eq_ok.1 rest).elim
  · rw [stack] at rest
    obtain ⟨_, _, recording, answered⟩ := bind_eq_ok.1 rest
    obtain ⟨rfl, rfl⟩ := pure_eq_ok.1 answered
    obtain ⟨_, _, got, recording⟩ := bind_eq_ok.1 recording
    obtain ⟨rfl, rfl⟩ := get_eq_ok.1 got
    obtain ⟨registry, recorded, rfl⟩ := onRegistry_eq_ok.1 recording
    rw [walked.owned] at recorded
    exact walked.advance (walked.sound.recordProgramEnd recorded)
  · rw [stack] at rest
    exact (throw_eq_ok.1 rest).elim

/-- A run that has annotated nothing is in step with a reading that has read
nothing. -/
theorem start_inStep (nodes : List Node) : InStep nodes 0 Annotator.start ⟨[], []⟩ := by
  have only : forall id (scope : Scope Node), Annotator.start.registry.scope? id = some scope ->
      id = 0 ∧ scope = ⟨"Global", none, superglobals 0, .globalRoot ∅⟩ := by
    intro id scope found
    cases id with
    | zero => exact ⟨rfl, (Option.some.inj found).symm⟩
    | succ id => cases found
  have symbols : forall id, Annotator.start.registry.symbolsOf id = ∅ := by
    intro id
    unfold Registry.symbolsOf
    split
    · rename_i scope found
      obtain ⟨-, rfl⟩ := only id scope found
      rfl
    · rfl
  refine ⟨rfl, ⟨?_, ?_, ?_, ?_, ?_, ?_⟩, Nat.le_refl _, .nil, .nil⟩
  · exact ⟨_, rfl, rfl, rfl, rfl⟩
  · intro id scope found notRoot
    exact (notRoot (only id scope found).1).elim
  · intro id scope found notRoot
    exact (notRoot (only id scope found).1).elim
  · intro id scope name binding found bound
    obtain ⟨-, rfl⟩ := only id scope found
    exact suits_of_superglobals bound
  · intro id name node found
    rw [symbols] at found
    cases found
  · intro id name inner found
    rw [symbols] at found
    cases found

/-- Annotating files one after the other keeps in step with reading them. -/
theorem annotateAll_inStep
    (closed : forall node, node ∈ nodes -> forall part, part ∈ walkedParts node -> part ∈ nodes)
    {roots : List Node} (members : forall root, root ∈ roots -> root ∈ nodes)
    {ends : List ScopeId} (inStep : InStep nodes owner state reading)
    (ended : roots.mapM annotateProgram state = .ok ends after) :
    InStep nodes owner after (roots.foldl (readFile owner) reading) := by
  induction roots generalizing state reading ends with
  | nil =>
      rw [List.mapM_nil, pure_eq_ok] at ended
      obtain ⟨-, rfl⟩ := ended
      exact inStep
  | cons root rest inductionHypothesis =>
      rw [List.mapM_cons, bind_eq_ok] at ended
      obtain ⟨scope, middle, first, later⟩ := ended
      obtain ⟨others, last, rest, answered⟩ := bind_eq_ok.1 later
      obtain ⟨-, rfl⟩ := pure_eq_ok.1 answered
      refine inductionHypothesis (fun other member => members other (List.mem_cons_of_mem _ member))
        ?_ rest
      exact annotateProgram_inStep closed (members root (List.mem_cons_self ..)) inStep first

/-- Files that were annotated from the start are in step with their plain
reading. -/
theorem annotated_inStep_zero {roots : List Node} {ends : List ScopeId} {annotator : Annotator}
    (annotated : roots.mapM annotateProgram Annotator.start = .ok ends annotator) :
    InStep (nodesOf roots) 0 annotator (readFiles 0 roots) :=
  annotateAll_inStep
    (fun _ member _ walked =>
      mem_nodesOf_of_mem_children member (mem_children_of_mem_walkedParts walked))
    (fun _ member => mem_nodesOf_of_root member) (start_inStep _) annotated

theorem globalScope_of_annotated {roots : List Node} {ends : List ScopeId} {annotator : Annotator}
    (annotated : roots.mapM annotateProgram Annotator.start = .ok ends annotator) :
    annotator.globalScope = 0 :=
  (annotated_inStep_zero annotated).owned

/-- Files that were annotated without a fault are in step with their plain
reading. -/
theorem annotated_inStep {roots : List Node} {ends : List ScopeId} {annotator : Annotator}
    (annotated : roots.mapM annotateProgram Annotator.start = .ok ends annotator) :
    InStep (nodesOf roots) annotator.globalScope annotator
      (readFiles annotator.globalScope roots) := by
  rw [globalScope_of_annotated annotated]
  exact annotated_inStep_zero annotated

/-- The definitions that scopes hold are nodes that annotation came to. -/
theorem annotated_sound_walked {roots : List Node} {ends : List ScopeId} {annotator : Annotator}
    (annotated : roots.mapM annotateProgram Annotator.start = .ok ends annotator) :
    Sound (walkedNodes roots) annotator.globalScope annotator.registry := by
  have inStep := annotateAll_inStep (fun _ member _ walked => mem_walkedNodes_of_part member walked)
    (fun _ member => mem_walkedNodes_of_root member) (start_inStep _) annotated
  rw [globalScope_of_annotated annotated]
  exact inStep.sound

/-- The scope of a node is the one that shows its dictionary. -/
theorem Mirrors.scopeOf {limit : Nat} (mirrors : Mirrors nodes owner limit state reading)
    (node : Node) :
    match reading.storeOf? node with
    | some store => ∃ scope, state.registry.scopeOf owner node = .ok scope ∧
        Shows state.registry limit scope store
    | none => state.registry.scopeOf owner node = .error (.unannotated node.describe) := by
  have records := mirrors.stamps
  unfold Registry.scopeOf State.storeOf?
  rw [mirrors.sound.isGlobal_root, if_pos rfl]
  unfold Registry.annotationsOf at records
  generalize (state.registry.historyOf owner).annotations = annotations at records ⊢
  generalize reading.stamps = stamps at records ⊢
  induction records with
  | nil => rfl
  | cons shown rest inductionHypothesis =>
      rename_i record entry records entries
      obtain ⟨same, shows⟩ := shown
      rw [List.find?_cons, List.find?_cons, same]
      cases entry.1 == node with
      | true => exact ⟨record.2, rfl, shows⟩
      | false => exact inductionHypothesis

/-- What is visible at the scope of an annotated node is what its dictionary
holds. -/
theorem exists_store_of_scopeOf {roots : List Node} {ends : List ScopeId} {annotator : Annotator}
    (annotated : roots.mapM annotateProgram Annotator.start = .ok ends annotator) {node : Node}
    {scope : ScopeId} (located : annotator.registry.scopeOf annotator.globalScope node = .ok scope) :
    ∃ store, (readFiles annotator.globalScope roots).storeOf? node = some store ∧
      forall name, annotator.registry.visible scope name = store.find? name := by
  have shown := (annotated_inStep annotated).scopeOf node
  cases found : (readFiles annotator.globalScope roots).storeOf? node with
  | none =>
      rw [found, located] at shown
      cases shown
  | some store =>
      rw [found] at shown
      obtain ⟨other, same, shows⟩ := shown
      rw [located] at same
      cases same
      exact ⟨store, rfl, shows.2⟩

/-- A variable that is looked up at a node, after all files have been annotated,
has the binding that the dictionary of the node held when the node was
annotated, and is unbound if it held none. Exactly the nodes that have a
dictionary are annotated. -/
theorem resolveVariable_eq_dictionary {roots : List Node} {ends : List ScopeId}
    {annotator : Annotator}
    (annotated : roots.mapM annotateProgram Annotator.start = .ok ends annotator) (node : Node) :
    match (readFiles annotator.globalScope roots).storeOf? node with
    | some store =>
        ∃ scope, annotator.registry.scopeOf annotator.globalScope node = .ok scope ∧
          forall name, annotator.registry.resolveVariable scope name =
            match store.find? name with
            | some binding => .ok binding
            | none => .error (.unbound name (annotator.registry.nameOf scope))
    | none =>
        annotator.registry.scopeOf annotator.globalScope node =
          .error (.unannotated node.describe) := by
  have located := (annotated_inStep annotated).scopeOf node
  cases found : (readFiles annotator.globalScope roots).storeOf? node with
  | none =>
      rw [found] at located
      exact located
  | some store =>
      rw [found] at located
      obtain ⟨scope, scopeEq, shows⟩ := located
      refine ⟨scope, scopeEq, fun name => ?_⟩
      rw [Registry.resolveVariable_eq, shows.2 name]
      cases store.find? name <;> rfl

/-- The file `<?php $x = 1; unset($x); $y = $x;`. -/
def unsetFile : Node :=
  let variableAt (start : Nat) (label : String) : Tree :=
    .node "variable_name" true start (start + 2) label []
  ⟨⟨"unset.php", "<?php $x = 1; unset($x); $y = $x;".toUTF8⟩,
    .node "program" true 0 33 "" [
      .node "expression_statement" true 6 13 "" [
        .node "assignment_expression" true 6 12 "" [
          variableAt 6 "left", .node "integer" true 11 12 "right" []]],
      .node "unset_statement" true 14 24 "" [variableAt 20 ""],
      .node "expression_statement" true 25 33 "" [
        .node "assignment_expression" true 25 32 "" [variableAt 25 "left", variableAt 30 "right"]]]⟩

/-- After the last statement of `unsetFile` the second variable is bound, and the
first one is not any more. -/
theorem resolveVariable_eq_dictionary_unset :
    let last := unsetFile.withTree (.node "assignment_expression" true 25 32 "" [])
    ∃ ends annotator scope,
      [unsetFile].mapM annotateProgram Annotator.start = .ok ends annotator ∧
        annotator.registry.scopeOf annotator.globalScope last = .ok scope ∧
        annotator.registry.resolveVariable scope "$x" =
          .error (.unbound "$x" (annotator.registry.nameOf scope)) ∧
        ∃ binding, annotator.registry.resolveVariable scope "$y" = .ok binding := by
  intro last
  have ran : passes (fun _ _ => true) ([unsetFile].mapM annotateProgram Annotator.start) = true := by
    decide +kernel
  have held : ((readFiles 0 [unsetFile]).storeOf? last).map
      (fun store => ((store.find? "$x").isSome, (store.find? "$y").isSome)) =
        some (false, true) := by decide +kernel
  obtain ⟨ends, annotator, outcome, -⟩ := exists_of_passes ran
  have located := resolveVariable_eq_dictionary outcome last
  have owner := globalScope_of_annotated outcome
  rw [owner] at located
  obtain ⟨store, found, flags⟩ := Option.map_eq_some_iff.1 held
  obtain ⟨unbound, bound⟩ := Prod.mk.inj flags
  rw [found] at located
  obtain ⟨scope, scopeEq, lookups⟩ := located
  obtain ⟨binding, bindingEq⟩ := Option.isSome_iff_exists.1 bound
  refine ⟨ends, annotator, scope, outcome, ?_, ?_, binding, ?_⟩
  · rw [owner, scopeEq]
  · rw [lookups, Option.not_isSome_iff_eq_none.1 (Bool.eq_false_iff.1 unbound)]
  · rw [lookups, bindingEq]

end PhpTaint.Annotation
