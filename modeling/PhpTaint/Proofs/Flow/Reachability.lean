import PhpTaint.Proofs.Flow.Depth
import PhpTaint.Proofs.Flow.Exploration

/-!
# Tracing finds the leaves in reach

A fresh tracer that does not follow calls searches for the leaves of an expression.
At the root no definition was known before and none is being followed, so every
definition that the search stopped at has been searched as well.
`trace_keys_eq_reachable` concludes that the leaves of an expression are the leaves
that can be reached from it.
-/

namespace PhpTaint.Flow

open Scopes Syntax Rules

variable {roots : List Node}

/-- If every name that can be read from an expression has one binding wherever it
is read, then the leaves that a fresh tracer finds without following calls are
the leaves that can be reached, whatever was traced before. The trace fails only
where it asks for the scope of a node in reach that was not annotated. -/
theorem trace_keys_eq_reachable {ends : List ScopeId} {annotator : Annotation.Annotator}
    (annotated : roots.mapM Annotation.annotateProgram Annotation.Annotator.start =
      .ok ends annotator) (distinct : KeysDistinct roots) (rules : RuleSet) {memory : Memory}
    (reached : Reached (Program.ofAnnotated annotator rules roots) (nodesOf roots) memory)
    {node : Node} (member : node ∈ nodesOf roots)
    (one : OneBinding (Program.ofAnnotated annotator rules roots) node) :
    let program := Program.ofAnnotated annotator rules roots
    match withTracer (Tracer.fresh [] false) (trace node) program memory with
    | .ok (deps, _) _ => forall name, name ∈ deps.keys ↔ ReachesLeaf program node name
    | .error fault _ => ∃ site asked, Reaches program node site ∧ AsksScope program site asked ∧
        program.registry.scopeOf program.globalScope asked = .error fault := by
  intro program
  have grounded : Grounded (nodesOf roots) program := .of_annotated annotated rules
  have started := (reached.coherent grounded).1.fresh [] false
  have safe := trace_safe grounded rfl member started nofun
  let search : Search := ⟨program, nodesOf roots, node, .leaves, True, false⟩
  have primed : Primed search (memory.withTracer (Tracer.fresh [] false)) :=
    ⟨.fresh search memory, fun _ name _ => Or.inl (one.hasOneBinding name)⟩
  have explorer : Explorer search (Flow.visitor program.depth) :=
    visitor_explores grounded (fun follows => absurd follows Bool.false_ne_true) program.depth
  have explores : Explores search (memory.withTracer (Tracer.fresh [] false)) (trace node)
      (.expression node) := explorer.trace node _ .refl primed
  have concludes : Concludes program memory (withTracer (Tracer.fresh [] false) (trace node))
      (fun result _ => forall name, name ∈ result.1.keys ↔ ReachesLeaf program node name)
      (fun fault _ => ∃ site asked, Reaches program node site ∧ AsksScope program site asked ∧
        program.registry.scopeOf program.globalScope asked = .error fault) := by
    refine (Concludes.withTracer_iff _ _).2 ?_
    refine Concludes.mono (Concludes.both safe explores) ?_ ?_
    · rintro deps after ⟨_, progress, covered⟩ name
      refine ⟨progress.sound name, ?_⟩
      rintro ⟨site, path, isLeaf⟩
      refine (covered.searched_expression trivial).met_of_path trivial ?_ path isLeaf
      intro other definition reaches known
      have listed := mem_nodes_of_reaches grounded reaches
      -- nothing was being followed when the trace began
      rcases progress.searched_of_knows (fun _ => rfl) (fun _ _ => distinct.eq_of_key_eq) listed
        known with following | searched
      · cases following
      · exact searched other
    · rintro fault after ⟨⟨unannotated, _⟩, tooDeep | ⟨site, asked, reaches, asks, missing⟩⟩
      · obtain ⟨other, _, rfl⟩ := grounded.unannotated unannotated
        cases tooDeep
      · rcases asks with asks | ⟨follows, _⟩
        · exact ⟨site, asked, reaches, asks, missing⟩
        · cases follows
  cases outcome : withTracer (Tracer.fresh [] false) (trace node) program memory with
  | ok result after => exact concludes.of_ok outcome
  | error fault after => exact concludes.of_error outcome

/-- The file `<?php global $p; $q = $p . $s; $p = $q . $r; echo $q;`. -/
def sharedCycleFile : Node :=
  let variableAt (start : Nat) (label : String) : Tree :=
    .node "variable_name" true start (start + 2) label []
  let assignmentAt (start : Nat) : Tree :=
    .node "expression_statement" true start (start + 13) "" [
      .node "assignment_expression" true start (start + 12) "" [
        variableAt start "left",
        .node "binary_expression" true (start + 5) (start + 12) "right" [
          variableAt (start + 5) "left", variableAt (start + 10) "right"]]]
  ⟨⟨"shared.php", "<?php global $p; $q = $p . $s; $p = $q . $r; echo $q;".toUTF8⟩,
    .node "program" true 0 53 "" [
      .node "global_declaration" true 6 16 "" [variableAt 13 ""],
      assignmentAt 17, assignmentAt 31,
      .node "echo_statement" true 45 53 "" [variableAt 50 ""]]⟩

/-- The sites that can be reached from the last variable of `sharedCycleFile`. -/
def sharedCycleSite : Site -> Prop
  | .expression node =>
      node ∈ nodesOf [sharedCycleFile] ∧ node.tree.start ∈ [22, 27, 36, 41, 50]
  | .variable _ (.referent node) => node ∈ nodesOf [sharedCycleFile] ∧ isDefinition node = true
  | .variable _ (.globalReference name _ owner) => name = "$p" ∧ owner = 0
  | .variable _ _ => False

/-- What a variable in reach is bound to. -/
def sharedCycleBinds (name : String) : Option (Binding Node) -> Bool
  | some (.referent node) =>
      name == "$q" && node.key == ⟨17, 29, "assignment_expression", "shared.php"⟩
  | some (.globalReference target _ owner) => name == "$p" && (target == "$p" && owner == 0)
  | none => name == "$r" || name == "$s"
  | _ => false

/-- Whether a global variable was found to be a node. -/
def sharedCycleGlobal : Except Fault (Binding Node) -> Bool
  | .ok (.referent _) => true
  | _ => false

section SharedCycle

variable {ends : List ScopeId} {annotator : Annotation.Annotator}
  (annotated : [sharedCycleFile].mapM Annotation.annotateProgram Annotation.Annotator.start =
    .ok ends annotator)

include annotated

/-- The variables in reach are bound as `sharedCycleBinds` says. -/
theorem sharedCycleBinds_of_reads {node : Node} {binding : Option (Binding Node)}
    (inside : sharedCycleSite (.expression node))
    (reads : ReadsBinding (Program.ofAnnotated annotator ∅ [sharedCycleFile]) node binding) :
    sharedCycleBinds node.text binding = true := by
  have owner : annotator.globalScope = 0 := Annotation.globalScope_of_annotated annotated
  let reading := Annotation.Dictionary.readFiles 0 [sharedCycleFile]
  have held : (nodesOf [sharedCycleFile]).all (fun node =>
      !(node.form = .variableName && node.tree.start ∈ [22, 27, 36, 41, 50]) ||
        (reading.storeOf? node).any fun store =>
          sharedCycleBinds node.text (store.find? node.text)) = true := by
    decide +kernel
  obtain ⟨scope, located, visible⟩ := reads.visible
  obtain ⟨store, found, shows⟩ := Annotation.exists_store_of_scopeOf annotated located
  have holds := List.all_eq_true.1 held node inside.1
  rw [owner] at found
  change reading.storeOf? node = some store at found
  rw [← visible]
  show sharedCycleBinds node.text (annotator.registry.visible scope node.text) = true
  rw [shows]
  simpa [reads.isVariable, inside.2, found] using holds

/-- Nothing but these sites can be reached. -/
theorem sharedCycleSite_of_reaches {node : Node} (start : sharedCycleSite (.expression node))
    {site : Site}
    (reaches : Reaches (Program.ofAnnotated annotator ∅ [sharedCycleFile]) node site) :
    sharedCycleSite site := by
  have grounded := Grounded.of_annotated annotated ∅
  have parts : (nodesOf [sharedCycleFile]).all (fun node =>
      !decide (node.tree.start ∈ [22, 27, 36, 41, 50]) ||
        (valueParts ∅ node).all fun part => part.tree.start ∈ [22, 27, 36, 41, 50]) = true := by
    decide +kernel
  have values : (nodesOf [sharedCycleFile]).all (fun node =>
      !isDefinition node || ((keptTarget? node).isNone &&
        (definingPart? node).all fun part => part.tree.start ∈ [22, 27, 36, 41, 50])) = true := by
    decide +kernel
  induction reaches with
  | refl => exact start
  | tail _ step inside =>
      cases step with
      | part member =>
          refine ⟨(inside_of_mem_valueParts member).occurs _ inside.1, ?_⟩
          have held := List.all_eq_true.1 parts _ inside.1
          simp [inside.2] at held
          simpa using held _ member
      | @read other binding reads =>
          have binds := sharedCycleBinds_of_reads annotated inside reads
          obtain ⟨_, _, visible⟩ := reads.visible
          have suits := grounded.sound.suits_of_visible visible
          cases binding with
          | referent definition => exact ⟨suits.1, isDefinition_of_mem_definedNames suits.2⟩
          | globalReference target other owner =>
              simp only [sharedCycleBinds, Bool.and_eq_true, beq_iff_eq] at binds
              exact binds.2
          | parameter name other index => cases binds
          | superglobal name owner => cases binds
          | unset => cases binds
      | value found =>
          refine ⟨(inside_of_definingPart? found).occurs _ inside.1, ?_⟩
          have held := List.all_eq_true.1 values _ inside.1
          rw [inside.2, found] at held
          simp only [Bool.not_true, Bool.false_or, Bool.and_eq_true] at held
          exact of_decide_eq_true held.2
      | former keeps _ =>
          obtain ⟨left, kept, _⟩ := keeps
          have held := List.all_eq_true.1 values _ inside.1
          rw [inside.2, kept] at held
          cases held
      | @reference _ _ _ _ binding followed _ =>
          obtain ⟨rfl, rfl⟩ := inside
          have suits := grounded.sound.suits_of_followReference followed
          have found : Outcome.passes
              (fun _ annotator => sharedCycleGlobal (annotator.registry.resolveGlobalVariable 0 "$p"))
              ([sharedCycleFile].mapM Annotation.annotateProgram Annotation.Annotator.start) =
                true := by
            decide +kernel
          have resolved : annotator.registry.resolveGlobalVariable 0 "$p" = .ok binding := followed
          rw [annotated] at found
          simp only [Outcome.passes, resolved] at found
          cases binding with
          | referent definition => exact ⟨suits.1, isDefinition_of_mem_definedNames suits.2⟩
          | parameter _ _ _ | superglobal _ _ | globalReference _ _ _ | unset => cases found

/-- The variables in reach have one binding each. -/
theorem oneBinding_sharedCycle {node : Node} (start : sharedCycleSite (.expression node)) :
    OneBinding (Program.ofAnnotated annotator ∅ [sharedCycleFile]) node := by
  have grounded := Grounded.of_annotated annotated ∅
  have distinct : KeysDistinct [sharedCycleFile] := by
    unfold KeysDistinct
    decide +kernel
  have texts : (nodesOf [sharedCycleFile]).all (fun left =>
      (nodesOf [sharedCycleFile]).all fun right =>
        !(left.tree.start ∈ [22, 27, 36, 41, 50] && right.tree.start ∈ [22, 27, 36, 41, 50] &&
          left.form = .variableName && right.form = .variableName && left.text == right.text) ||
            (left.key == right.key || left.text == "$q")) = true := by
    decide +kernel
  intro left right leftBinding rightBinding leftReach rightReach same leftReads rightReads
  have leftSite := sharedCycleSite_of_reaches annotated start leftReach
  have rightSite := sharedCycleSite_of_reaches annotated start rightReach
  have held := List.all_eq_true.1 (List.all_eq_true.1 texts left leftSite.1) right rightSite.1
  simp only [leftSite.2, rightSite.2, leftReads.isVariable, rightReads.isVariable, same, decide_true,
    Bool.and_self, BEq.rfl, Bool.not_true, Bool.false_or, Bool.or_eq_true, beq_iff_eq] at held
  rcases held with sameKey | shared
  · cases distinct.eq_of_key_eq leftSite.1 rightSite.1 sameKey
    obtain ⟨_, located, leftVisible⟩ := leftReads.visible
    obtain ⟨_, alsoLocated, rightVisible⟩ := rightReads.visible
    rw [located] at alsoLocated
    cases alsoLocated
    rw [← leftVisible, rightVisible]
  · -- `$q` is read twice
    have assigned : forall node binding, sharedCycleSite (.expression node) -> node.text = "$q" ->
        ReadsBinding (Program.ofAnnotated annotator ∅ [sharedCycleFile]) node binding ->
          ∃ definition, binding = some (.referent definition) ∧
            definition ∈ nodesOf [sharedCycleFile] ∧
            definition.key = ⟨17, 29, "assignment_expression", "shared.php"⟩ := by
      intro node binding inside named reads
      have binds := sharedCycleBinds_of_reads annotated inside reads
      rw [named] at binds
      obtain ⟨_, _, visible⟩ := reads.visible
      rcases binding with _ | binding
      · cases binds
      · have suits := grounded.sound.suits_of_visible visible
        cases binding with
        | referent definition => exact ⟨definition, rfl, suits.1, by simpa [sharedCycleBinds] using binds⟩
        | parameter _ _ _ | superglobal _ _ | globalReference _ _ _ | unset => cases binds
    obtain ⟨first, rfl, firstListed, firstKey⟩ := assigned left _ leftSite (same.trans shared) leftReads
    obtain ⟨second, rfl, secondListed, secondKey⟩ :=
      assigned right _ rightSite shared rightReads
    rw [distinct.eq_of_key_eq firstListed secondListed (firstKey.trans secondKey.symm)]

end SharedCycle

/-- The last variable of `sharedCycleFile` leads to two leaves, through assignments
that lead to each other. -/
theorem trace_keys_eq_reachable_shared_cycle :
    let variableNode := sharedCycleFile.withTree (.node "variable_name" true 50 52 "" [])
    ∃ ends annotator, [sharedCycleFile].mapM Annotation.annotateProgram
        Annotation.Annotator.start = .ok ends annotator ∧
      forall name, ReachesLeaf (Program.ofAnnotated annotator ∅ [sharedCycleFile]) variableNode
        name ↔ name ∈ ["$r", "$s"] := by
  intro variableNode
  have distinct : KeysDistinct [sharedCycleFile] := by
    unfold KeysDistinct
    decide +kernel
  have ran : Outcome.passes (fun _ annotator =>
      Outcome.passes (fun result _ => result.1.keys == ["$r", "$s"])
        (withTracer (Tracer.fresh [] false) (trace variableNode)
          (Program.ofAnnotated annotator ∅ [sharedCycleFile]) Memory.start))
      ([sharedCycleFile].mapM Annotation.annotateProgram Annotation.Annotator.start) = true := by
    decide +kernel
  have file : sharedCycleFile ∈ nodesOf [sharedCycleFile] :=
    mem_nodesOf_of_root (List.mem_cons_self ..)
  have echo : sharedCycleFile.withTree (.node "echo_statement" true 45 53 "" [variableNode.tree]) ∈
      sharedCycleFile.children :=
    List.mem_of_getElem? (show sharedCycleFile.children[3]? = some _ from rfl)
  have member : variableNode ∈ nodesOf [sharedCycleFile] :=
    mem_nodesOf_of_mem_children (mem_nodesOf_of_mem_children file echo) (List.mem_cons_self ..)
  obtain ⟨ends, annotator, outcome, traces⟩ := Outcome.exists_of_passes ran
  obtain ⟨result, after, traced, keys⟩ := Outcome.exists_of_passes traces
  refine ⟨ends, annotator, outcome, ?_⟩
  have start : sharedCycleSite (.expression variableNode) := ⟨member, by decide⟩
  have leaves := trace_keys_eq_reachable outcome distinct ∅ .start member
    (oneBinding_sharedCycle outcome start)
  dsimp only at leaves
  rw [traced] at leaves
  intro name
  rw [← leaves name, eq_of_beq keys]

end PhpTaint.Flow
