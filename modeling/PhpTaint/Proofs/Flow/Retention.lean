import PhpTaint.Proofs.Flow.Depth
import PhpTaint.Proofs.Flow.Exploration

/-!
# Writing a part of a variable keeps its taint

A construct that writes an element or a property of a variable, or adds to it,
gives the variable a new binding, and the former one stays a part of its value.
So every input that a reading before the write draws on can be reached from a
reading after it as well. The search from the second reading starts with the
written variable itself, and the write is being followed until it ends: wherever
the variable is read on the way it is looked up afresh. For the other names the
search relies on their having one binding each.
-/

namespace PhpTaint.Flow

open Scopes Syntax Rules

/-- A variable that is read at a scope. -/
structure ReadsAt (program : Program) (node : Node) (name : String) (scope : ScopeId) : Prop where
  isVariable : node.form = .variableName
  named : node.text = name
  located : program.registry.scopeOf program.globalScope node = .ok scope

/-- A variable is read just before and just after a construct that writes a part of
it or adds to it. The scope after the write opens with the new binding; on the left
side the variable has the binding that it has in the scope before. -/
structure AroundWrite (program : Program) (write before after : Node) (name : String)
    (former written : ScopeId) : Prop where
  opens : ∃ scope, program.registry.scope? written = some scope ∧ scope.parent = some former ∧
    scope.bindings.find? name = some (.referent write)
  keeps : ∃ start place, KeepsFormer write start ∧ start.text = name ∧
    program.registry.scopeOf program.globalScope start = .ok place ∧
    program.registry.visible place name = program.registry.visible former name
  earlier : ReadsAt program before name former
  later : ReadsAt program after name written

variable {program : Program} {nodes roots : List Node} {root node : Node} {memory : Memory}
  {name input : String} {followsCalls : Bool}

/-- What a fresh tracer reports as tainted is an input in reach. -/
theorem reaches_input_of_tainted (grounded : Grounded nodes program)
    (entersNone : EntersNoFunction program root followsCalls) {result : Deps × Tracer}
    {final : Memory}
    (traced : withTracer (Tracer.fresh [] followsCalls) (trace root) program memory =
      .ok result final) (tainted : result.1.Tainted input) :
    ∃ site, Reaches program root site ∧ InputSite program site input := by
  let search : Search := ⟨program, nodes, root, .inputs, False, followsCalls⟩
  have explorer : Explorer search (Flow.visitor program.depth) :=
    visitor_explores grounded entersNone program.depth
  have explores : Explores search (memory.withTracer (Tracer.fresh [] followsCalls)) (trace root)
      (.expression root) := explorer.trace root _ .refl ⟨.fresh search memory, nofun⟩
  have concludes : Concludes program memory (withTracer (Tracer.fresh [] followsCalls) (trace root))
      (fun result _ => forall input, result.1.Tainted input -> search.Finds input)
      (fun fault _ => search.Fails fault) := by
    refine (Concludes.withTracer_iff _ _).2 (Concludes.mono explores ?_ fun _ _ faulty => faulty)
    rintro deps after ⟨progress, _⟩
    exact progress.sound
  exact concludes.of_ok traced input tainted

section Definition

variable {definition : Node} {scope : ScopeId}

/-- The memory in which the definition of the first variable is followed. -/
def Memory.firstRead (memory : Memory) (followsCalls : Bool) (name : String) (definition : Node) :
    Memory :=
  ((memory.withTracer (Tracer.fresh [] followsCalls)).keepRecord name
    (Record.leaf name .unassigned (some (.referent definition)))).activate definition.key

/-- A fresh tracer follows a variable to its definition. -/
theorem traceVariable_firstRead {traceDefinition : String -> Node -> Tracing Deps}
    {good : Deps -> Memory -> Prop} {bad : Fault -> Memory -> Prop}
    (reads : ReadsBinding program node (some (.referent definition)))
    (follows : Concludes program (memory.firstRead followsCalls node.text definition)
      (traceDefinition node.text definition)
      (fun deps after => good deps ((after.release definition.key).keepTraced definition.key deps))
      (fun fault after => bad fault (after.release definition.key))) :
    Concludes program (memory.withTracer (Tracer.fresh [] followsCalls))
      (traceVariable traceDefinition node) good bad := by
  obtain ⟨scope, located, visible⟩ := reads.visible
  refine Concludes.traceVariable_of (Concludes.resolveVariable_of nofun nofun fun _ _ => ?_)
  refine Concludes.lookupVariable_of ?_ ?_ ?_
  · intro fault missing
    rw [located] at missing
    cases missing
  · intro place binding placed found
    rw [located] at placed
    cases placed
    rw [visible] at found
    cases found
    rw [if_neg (by rw [reads.notInput]; exact Bool.false_ne_true)]
    split
    · rename_i active
      exact absurd active Bool.false_ne_true
    · refine Concludes.followRecord_of nofun ?_
      rintro _ ⟨⟩
      exact Concludes.followDefinition_of nofun nofun fun _ _ => follows
  · intro place journal placed absent
    rw [located] at placed
    cases placed
    rw [visible] at absent
    cases absent

/-- While the definition of the first variable is followed, that variable is looked
up afresh. -/
theorem primed_firstRead (nodes : List Node) (quest : Quest) (memory : Memory)
    (reads : ReadsBinding program node (some (.referent definition)))
    (one : forall name, name ≠ node.text -> HasOneBinding program node name) :
    Primed ⟨program, nodes, node, quest, True, followsCalls⟩
      (memory.firstRead followsCalls node.text definition) := by
  let search : Search := ⟨program, nodes, node, quest, True, followsCalls⟩
  have kept : Learned search ((memory.withTracer (Tracer.fresh [] followsCalls)).keepRecord
      node.text (Record.leaf node.text .unassigned (some (.referent definition)))) :=
    (Learned.fresh search memory).keepRecord
      ⟨rfl, fun _ => nofun, fun _ => ⟨node, .refl, rfl, reads⟩⟩
  refine ⟨kept.of_eq rfl rfl rfl rfl, ?_⟩
  intro _ name _
  by_cases same : name = node.text
  · subst same
    exact Or.inr ⟨_, Table.find?_insert_self .., List.contains_iff_mem.2 (List.mem_cons_self ..)⟩
  · exact Or.inl (one name same)

/-- A fresh tracer that reads a variable finds every input behind its definition. -/
theorem trace_read_meets (memory : Memory) (grounded : Grounded nodes program)
    (apart : forall left right, left ∈ nodes -> right ∈ nodes -> left.key = right.key ->
      left = right)
    (entersNone : EntersNoFunction program node followsCalls)
    (reads : ReadsBinding program node (some (.referent definition)))
    (one : forall name, name ≠ node.text -> HasOneBinding program node name) :
    Concludes program (memory.withTracer (Tracer.fresh [] followsCalls)) (trace node)
      (fun deps _ => forall site input, Relation.ReflTransGen (UseStep program)
        (.variable node.text (.referent definition)) site -> InputSite program site input ->
          deps.Tainted input)
      (fun _ _ => True) := by
  show Concludes program _ (traceWithin program.depth node) _ _
  let search : Search := ⟨program, nodes, node, .inputs, True, followsCalls⟩
  have reaches : search.InReach (.variable node.text (.referent definition)) :=
    Relation.ReflTransGen.single (.read reads)
  obtain ⟨_, _, visible⟩ := reads.visible
  obtain ⟨member, defines⟩ := grounded.sound.suits_of_visible visible
  cases program.depth with
  | zero => trivial
  | succ depth =>
      rw [traceWithin]
      unfold traceNode
      rw [reads.isVariable]
      refine traceVariable_firstRead reads ?_
      have explorer : Explorer search (Flow.visitor depth) :=
        visitor_explores grounded entersNone depth
      refine Concludes.mono (explorer.definition node.text definition _ member defines reaches
        (primed_firstRead nodes .inputs memory reads one)) ?_ fun _ _ _ => trivial
      rintro deps after ⟨progress, searched⟩ site input path enters
      refine searched.met_of_path trivial ?_ path enters
      intro other known onward isKnown
      have listed := mem_nodes_of_reaches grounded (reaches.trans onward)
      -- nothing had been followed before, and only the definition was being followed
      rcases progress.searched_of_knows (fun _ => rfl) apart listed isKnown with following | done
      · cases apart _ _ listed member (List.mem_singleton.1 following)
        exact searched.rename
      · exact done other

end Definition

theorem KeepsFormer.isVariable {definition start : Node} (keeps : KeepsFormer definition start) :
    start.form = .variableName := by
  obtain ⟨left, _, chosen⟩ := keeps
  exact Node.isVariable_iff.1 (Option.filter_eq_some_iff.1 chosen).2

/-- What a reading before a write draws on lies behind the definition that the write
makes. -/
theorem AroundWrite.behind {write before after : Node} {former written : ScopeId}
    (around : AroundWrite program write before after name former written)
    (notInput : program.rules.isInputVariable name = false) {site : Site}
    (reaches : Reaches program before site) :
    site = .expression before ∨
      Relation.ReflTransGen (UseStep program) (.variable name (.referent write)) site := by
  obtain ⟨start, place, keeps, rfl, placed, sameBinding⟩ := around.keeps
  rcases reaches.cases_head with same | ⟨next, step, onward⟩
  · exact Or.inl same.symm
  · refine Or.inr ?_
    cases step with
    | part member => simp [valueParts, around.earlier.isVariable] at member
    | read reads =>
        have visible := reads.seen around.earlier.located
        rw [around.earlier.named] at visible onward
        exact .head (.former keeps
          ⟨keeps.isVariable, notInput, place, placed, sameBinding.trans visible⟩) onward

/-- Writing a part of a variable, or adding to it, loses no taint: every leaf that is
tainted where the variable is read just before the write is tainted where it is read
just after it. The variable is not an input, every other name in reach of the second
reading has one binding wherever it is read, and calls are not followed or no declared
function is called in reach. The second trace fails only for a variable or a call that
was not annotated, or for its depth where default values lead back to themselves. -/
theorem part_write_keeps_taint {ends : List ScopeId} {annotator : Annotation.Annotator}
    (annotated : roots.mapM Annotation.annotateProgram Annotation.Annotator.start =
      .ok ends annotator) (distinct : KeysDistinct roots) (rules : RuleSet) (followsCalls : Bool)
    {memory : Memory}
    (reached : Reached (Program.ofAnnotated annotator rules roots) (nodesOf roots) memory)
    {write before after : Node} {former written : ScopeId}
    (around : AroundWrite (Program.ofAnnotated annotator rules roots) write before after name former
      written)
    (member : after ∈ nodesOf roots) (notInput : rules.isInputVariable name = false)
    (one : forall other, other ≠ name ->
      HasOneBinding (Program.ofAnnotated annotator rules roots) after other)
    (entersNone : EntersNoFunction (Program.ofAnnotated annotator rules roots) after followsCalls) :
    let program := Program.ofAnnotated annotator rules roots
    match withTracer (Tracer.fresh [] followsCalls) (trace after) program memory with
    | .ok (deps, _) _ => forall memory result final,
        withTracer (Tracer.fresh [] followsCalls) (trace before) program memory =
          .ok result final -> forall input, result.1.Tainted input -> deps.Tainted input
    | .error fault _ => Unannotated (nodesOf roots) program fault ∨
        followsCalls = true ∧ ¬ NoDefaultCycle program (nodesOf roots) := by
  intro program
  have grounded : Grounded (nodesOf roots) program := .of_annotated annotated rules
  obtain ⟨scope, opened, _, bound⟩ := around.opens
  have reads : ReadsBinding program after (some (.referent write)) := by
    refine ⟨around.later.isVariable, around.later.named.symm ▸ notInput, written,
      around.later.located, ?_⟩
    rw [around.later.named, Registry.visible_of_scope opened, bound]
    rfl
  have onward : Reaches program after (.variable name (.referent write)) :=
    around.later.named ▸ Relation.ReflTransGen.single (.read reads)
  -- a call in reach of the first reading is in reach of the second one
  have entersNoneBefore : EntersNoFunction program before followsCalls := by
    intro follows call reaches
    rcases around.behind notInput reaches with same | path
    · cases same
      simp [calledFunction?, around.earlier.isVariable]
    · exact entersNone follows call (onward.trans path)
  have meets := trace_read_meets memory grounded
    (fun left right => distinct.eq_of_key_eq) entersNone reads
    fun other different => one other (around.later.named ▸ different)
  have concludes : Concludes program memory
      (withTracer (Tracer.fresh [] followsCalls) (trace after))
      (fun result _ => forall site input, Relation.ReflTransGen (UseStep program)
        (.variable after.text (.referent write)) site -> InputSite program site input ->
          result.1.Tainted input) (fun _ _ => True) :=
    (Concludes.withTracer_iff _ _).2 meets
  cases outcome : withTracer (Tracer.fresh [] followsCalls) (trace after) program memory with
  | ok result final =>
      intro earlierMemory earlier earlierFinal ended input tainted
      obtain ⟨site, reaches, enters⟩ :=
        reaches_input_of_tainted grounded entersNoneBefore ended tainted
      rcases around.behind notInput reaches with rfl | path
      · cases enters with
        | call named => simp [inputName?, around.earlier.isVariable] at named
        | read _ isInput =>
            rw [around.earlier.named] at isInput
            exact absurd (notInput.symm.trans isInput) Bool.false_ne_true
      · exact concludes.of_ok outcome site input (around.later.named.symm ▸ path) enters
  | error fault final =>
      by_cases acyclic : followsCalls = true -> NoDefaultCycle program (nodesOf roots)
      · have started := (reached.coherent grounded).1.fresh [] followsCalls
        have safe := trace_safe grounded rfl member started acyclic
        have failed : Concludes program memory
            (withTracer (Tracer.fresh [] followsCalls) (trace after)) (fun _ _ => True)
            (fun fault _ => Unannotated (nodesOf roots) program fault) :=
          (Concludes.withTracer_iff _ _).2 (Concludes.mono safe (fun _ _ _ => trivial)
            fun _ _ faulty => faulty.1)
        exact Or.inl (failed.of_error outcome)
      · exact Or.inr (Classical.not_imp.1 acyclic)

/-- A node of a file, by its place in the order of the file. -/
def nodeAt (file : Node) (index : Nat) : Node := (nodesOf [file]).getD index file

theorem nodeAt_mem (file : Node) (index : Nat) : nodeAt file index ∈ nodesOf [file] := by
  unfold nodeAt
  rw [List.getD_eq_getElem?_getD]
  cases found : (nodesOf [file])[index]? with
  | none => exact mem_nodesOf_of_root (List.mem_singleton_self file)
  | some node => exact List.mem_of_getElem? found

/-- The scopes around a construct that is annotated with the scope that it opens. -/
def scopesAround? (program : Program) (write : Node) (name : String) :
    Option (ScopeId × ScopeId) := do
  let written ← (program.registry.scopeOf program.globalScope write).toOption
  let scope ← program.registry.scope? written
  let former ← scope.parent
  match scope.bindings.find? name with
  | some (.referent node) => if node.key = write.key then some (former, written) else none
  | _ => none

/-- Whether a node is a variable that is read at a scope. -/
def isReadAt (program : Program) (node : Node) (name : String) (scope : ScopeId) : Bool :=
  node.form = .variableName && node.text = name &&
    (program.registry.scopeOf program.globalScope node).toOption = some scope

/-- Whether a variable is read around a construct that writes a part of it. -/
def isAroundWrite (program : Program) (write before after : Node) (name : String) : Bool :=
  match (keptTarget? write).bind formerVariable?, scopesAround? program write name with
  | some start, some (former, written) =>
      isReadAt program start name former && isReadAt program before name former &&
        isReadAt program after name written
  | _, _ => false

section Checks

variable {write before after : Node}

theorem readsAt_of_isReadAt {scope : ScopeId} (passed : isReadAt program node name scope = true) :
    ReadsAt program node name scope := by
  simp only [isReadAt, Bool.and_eq_true, decide_eq_true_eq] at passed
  exact ⟨passed.1.1, passed.1.2, Outcome.eq_ok_of_toOption passed.2⟩

theorem exists_aroundWrite (grounded : Grounded (nodesOf roots) program)
    (distinct : KeysDistinct roots) (member : write ∈ nodesOf roots)
    (passed : isAroundWrite program write before after name = true) :
    ∃ former written, AroundWrite program write before after name former written := by
  unfold isAroundWrite at passed
  split at passed
  · rename_i start former written kept around
    simp only [Bool.and_eq_true] at passed
    obtain ⟨⟨start, before⟩, after⟩ := passed
    obtain ⟨left, target, chosen⟩ := Option.bind_eq_some_iff.1 kept
    have read := readsAt_of_isReadAt start
    refine ⟨former, written, ?_, ⟨_, former, ⟨left, target, chosen⟩, read.named, read.located, rfl⟩,
      readsAt_of_isReadAt before, readsAt_of_isReadAt after⟩
    simp only [scopesAround?, Option.bind_eq_bind, Option.bind_eq_some_iff] at around
    obtain ⟨place, _, scope, opened, parent, enclosing, around⟩ := around
    split at around
    · rename_i definition bound
      split at around
      · rename_i sameKey
        cases around
        have visible : program.registry.visible written name = some (.referent definition) := by
          rw [Registry.visible_of_scope opened, bound]
          rfl
        have suits := grounded.sound.suits_of_visible visible
        cases distinct.eq_of_key_eq suits.1 member sameKey
        exact ⟨scope, opened, enclosing, bound⟩
      · cases around
    · cases around
  · cases passed

/-- An expression in reach is a node of the files. -/
theorem mem_nodesOf_of_reaches (grounded : Grounded (nodesOf roots) program)
    (member : root ∈ nodesOf roots) (reaches : Reaches program root (.expression node)) :
    node ∈ nodesOf roots := by
  suffices occurs : forall site, Reaches program root site ->
      forall node, site = .expression node -> node ∈ nodesOf roots from occurs _ reaches node rfl
  intro site path
  induction path with
  | refl =>
      rintro node ⟨⟩
      exact member
  | tail earlier step inductionHypothesis =>
      rintro node rfl
      cases step with
      | part listed =>
          exact (inside_of_mem_valueParts listed).occurs _ (inductionHypothesis _ rfl)
      | value found =>
          exact (inside_of_definingPart? found).occurs _ (mem_nodes_of_reaches grounded earlier)

/-- A name that stands in one place only has one binding. -/
theorem hasOneBinding_of_once (grounded : Grounded (nodesOf roots) program)
    (member : root ∈ nodesOf roots)
    (once : forall left right, left ∈ nodesOf roots -> right ∈ nodesOf roots ->
      left.form = .variableName -> right.form = .variableName -> left.text = name ->
      right.text = name -> program.rules.isInputVariable name = false -> left = right) :
    HasOneBinding program root name := by
  intro left right leftBinding rightBinding leftReach rightReach leftNamed rightNamed leftReads
    rightReads
  cases once left right (mem_nodesOf_of_reaches grounded member leftReach)
    (mem_nodesOf_of_reaches grounded member rightReach) leftReads.isVariable rightReads.isVariable
    leftNamed rightNamed (leftNamed ▸ leftReads.notInput)
  obtain ⟨_, located, visible⟩ := leftReads.visible
  exact visible.symm.trans (rightReads.seen located)

end Checks

/-- Rules with the input `$_GET`. -/
def inputRules : RuleSet :=
  { (∅ : RuleSet) with
    sources :=
      Table.empty.insert (.text "$_GET") ⟨.text "$_GET", .text "$_GET", variableCategory, .null⟩ }

/-- A variable with a name of one letter. -/
def letterAt (start : Nat) (label : String) : Tree :=
  .node "variable_name" true start (start + 2) label []

/-- A statement that assigns a value. -/
def assignsAt (start stop : Nat) (left right : Tree) : Tree :=
  .node "expression_statement" true start (stop + 1) "" [
    .node "assignment_expression" true start stop "" [left, right]]

/-- A statement that prints a variable. -/
def printsAt (start : Nat) : Tree :=
  .node "echo_statement" true start (start + 8) "" [letterAt (start + 5) ""]

/-- The target `$v['k']`. -/
def elementOf (start : Nat) : Tree :=
  .node "subscript_expression" true start (start + 7) "left" [
    letterAt start "", .node "string" true (start + 3) (start + 6) "" []]

/-- The input `$_GET`, on the right side. -/
def inputValueAt (start : Nat) : Tree := .node "variable_name" true start (start + 5) "right" []

/-- The concatenation of two variables with names of one letter. -/
def joinedAt (start : Nat) : Tree :=
  .node "binary_expression" true start (start + 7) "right" [
    letterAt start "left", letterAt (start + 5) "right"]

/-- The file `<?php $v = $_GET; $v = $v . $s; echo $v; $v['k'] = $v . $r; echo $v;`. -/
def elementFile : Node :=
  ⟨⟨"element.php", "<?php $v = $_GET; $v = $v . $s; echo $v; $v['k'] = $v . $r; echo $v;".toUTF8⟩,
    .node "program" true 0 68 "" [
      .node "php_tag" true 0 5 "" [],
      assignsAt 6 16 (letterAt 6 "left") (inputValueAt 11),
      assignsAt 18 30 (letterAt 18 "left") (joinedAt 23),
      printsAt 32,
      assignsAt 41 58 (elementOf 41) (joinedAt 51),
      printsAt 60]⟩

/-- A variable that was assigned an input and added to keeps the taint when an element
of it is written. -/
theorem part_write_keeps_taint_element :
    ∃ ends annotator, [elementFile].mapM Annotation.annotateProgram Annotation.Annotator.start =
        .ok ends annotator ∧
      ∃ result final, withTracer (Tracer.fresh [] false) (trace (nodeAt elementFile 23))
        (Program.ofAnnotated annotator inputRules [elementFile]) Memory.start = .ok result final ∧
          result.1.Tainted "$_GET" := by
  have checked : Outcome.passes (fun _ annotator =>
      let program := Program.ofAnnotated annotator inputRules [elementFile]
      isAroundWrite program (nodeAt elementFile 15) (nodeAt elementFile 13) (nodeAt elementFile 23)
          "$v" &&
        (Outcome.passes (fun result _ => decide (result.1.Tainted "$_GET"))
          (withTracer (Tracer.fresh [] false) (trace (nodeAt elementFile 13)) program
            Memory.start) &&
        Outcome.passes (fun _ _ => true)
          (withTracer (Tracer.fresh [] false) (trace (nodeAt elementFile 23)) program
            Memory.start)))
      ([elementFile].mapM Annotation.annotateProgram Annotation.Annotator.start) = true := by
    decide +kernel
  have distinct : KeysDistinct [elementFile] := by
    unfold KeysDistinct
    decide +kernel
  have once : (nodesOf [elementFile]).all (fun left => (nodesOf [elementFile]).all fun right =>
      !(left.form = .variableName && right.form = .variableName && left.text == right.text) ||
        (left.text == "$v" || inputRules.isInputVariable left.text || left.key == right.key)) =
          true := by
    decide +kernel
  obtain ⟨ends, annotator, annotated, passed⟩ := Outcome.exists_of_passes checked
  simp only [Bool.and_eq_true] at passed
  obtain ⟨around, before, after⟩ := passed
  have grounded := Grounded.of_annotated annotated inputRules
  have member := nodeAt_mem elementFile 23
  obtain ⟨former, written, around⟩ :=
    exists_aroundWrite grounded distinct (nodeAt_mem elementFile 15) around
  obtain ⟨earlier, earlierFinal, ended, tainted⟩ := Outcome.exists_of_passes before
  obtain ⟨result, final, finished, _⟩ := Outcome.exists_of_passes after
  have one : forall other, other ≠ "$v" -> HasOneBinding
      (Program.ofAnnotated annotator inputRules [elementFile]) (nodeAt elementFile 23) other := by
    intro other different
    refine hasOneBinding_of_once grounded member ?_
    intro left right leftMember rightMember leftVariable rightVariable leftNamed rightNamed notInput
    have notInput : inputRules.isInputVariable other = false := notInput
    have held := List.all_eq_true.1 (List.all_eq_true.1 once left leftMember) right rightMember
    refine distinct.eq_of_key_eq leftMember rightMember ?_
    simpa [leftVariable, rightVariable, leftNamed, rightNamed, different, notInput] using held
  have keeps := part_write_keeps_taint annotated distinct inputRules false .start around member
    (by decide +kernel) one nofun
  dsimp only at keeps
  rw [finished] at keeps
  exact ⟨ends, annotator, annotated, result, final, finished,
    keeps _ _ _ ended _ (of_decide_eq_true tainted)⟩

/-- The file `<?php $x = $_GET; $v = $x; $x = 1; echo $v; $v['k'] = $x; echo $v;`. -/
def cachedFile : Node :=
  ⟨⟨"cached.php", "<?php $x = $_GET; $v = $x; $x = 1; echo $v; $v['k'] = $x; echo $v;".toUTF8⟩,
    .node "program" true 0 66 "" [
      .node "php_tag" true 0 5 "" [],
      assignsAt 6 16 (letterAt 6 "left") (inputValueAt 11),
      assignsAt 18 25 (letterAt 18 "left") (letterAt 23 "right"),
      assignsAt 27 33 (letterAt 27 "left") (.node "integer" true 32 33 "right" []),
      printsAt 35,
      assignsAt 44 56 (elementOf 44) (letterAt 54 "right"),
      printsAt 58]⟩

/-- A declaration of a function with a name of one letter and the parameter `$a`. -/
def declaresAt (start stop : Nat) (returned : List Tree) : Tree :=
  .node "function_definition" true start stop "" [
    .node "name" true (start + 9) (start + 10) "name" [],
    .node "formal_parameters" true (start + 10) (start + 14) "parameters" [
      .node "simple_parameter" true (start + 11) (start + 13) "" [letterAt (start + 11) "name"]],
    .node "compound_statement" true (start + 15) stop "body" returned]

/-- A statement that returns a value. -/
def returnsAt (start stop : Nat) (value : Tree) : Tree :=
  .node "return_statement" true start stop "" [value]

/-- A call of a function with a name of one letter. -/
def callsAt (start stop : Nat) (label : String) (argument : Tree) : Tree :=
  .node "function_call_expression" true start stop label [
    .node "name" true start (start + 1) "function" [],
    .node "arguments" true (start + 1) stop "arguments" [
      .node "argument" true (start + 2) (stop - 1) "" [argument]]]

/-- The file `<?php function f($a) { return g($a); } function g($a) { return f($a);
return $a; } $v = f($_GET); echo $v; $v['k'] = g(1); echo $v;`, on one line. -/
def mutualFile : Node :=
  ⟨⟨"mutual.php",
      ("<?php function f($a) \x7b return g($a); \x7d function g($a) \x7b return f($a); " ++
        "return $a; \x7d $v = f($_GET); echo $v; $v['k'] = g(1); echo $v;").toUTF8⟩,
    .node "program" true 0 131 "" [
      .node "php_tag" true 0 5 "" [],
      declaresAt 6 38 [returnsAt 23 36 (callsAt 30 35 "" (letterAt 32 ""))],
      declaresAt 39 82 [
        returnsAt 56 69 (callsAt 63 68 "" (letterAt 65 "")),
        returnsAt 70 80 (letterAt 77 "")],
      assignsAt 83 96 (letterAt 83 "left")
        (callsAt 88 96 "right" (.node "variable_name" true 90 95 "" [])),
      printsAt 98,
      assignsAt 107 121 (elementOf 107)
        (callsAt 117 121 "right" (.node "integer" true 119 120 "" [])),
      printsAt 123]⟩

/-- The file `<?php function f($a) { return 1; } global $p; $q = $p; $v = $q; echo $v;
$v['k'] = f($p); echo $v; $p = $q . $_GET;`, on one line. -/
def droppedFile : Node :=
  ⟨⟨"dropped.php",
      ("<?php function f($a) \x7b return 1; \x7d global $p; $q = $p; $v = $q; echo $v; " ++
        "$v['k'] = f($p); echo $v; $p = $q . $_GET;").toUTF8⟩,
    .node "program" true 0 115 "" [
      .node "php_tag" true 0 5 "" [],
      declaresAt 6 34 [returnsAt 23 32 (.node "integer" true 30 31 "" [])],
      .node "global_declaration" true 35 45 "" [letterAt 42 ""],
      assignsAt 46 53 (letterAt 46 "left") (letterAt 51 "right"),
      assignsAt 55 62 (letterAt 55 "left") (letterAt 60 "right"),
      printsAt 64,
      assignsAt 73 88 (elementOf 73) (callsAt 83 88 "right" (letterAt 85 "")),
      printsAt 90,
      assignsAt 99 114 (letterAt 99 "left")
        (.node "binary_expression" true 104 114 "right" [letterAt 104 "left", inputValueAt 109])]⟩

/-- Around a construct that writes a part of a variable, a leaf stops being tainted. -/
def LosesTaint (rules : RuleSet) (followsCalls : Bool) (roots : List Node) (name input : String) :
    Prop :=
  ∃ ends annotator write before after former written,
    roots.mapM Annotation.annotateProgram Annotation.Annotator.start = .ok ends annotator ∧
    AroundWrite (Program.ofAnnotated annotator rules roots) write before after name former written ∧
    rules.isInputVariable name = false ∧
    (∃ result final, withTracer (Tracer.fresh [] followsCalls) (trace before)
      (Program.ofAnnotated annotator rules roots) Memory.start = .ok result final ∧
        result.1.Tainted input) ∧
    ∃ result final, withTracer (Tracer.fresh [] followsCalls) (trace after)
      (Program.ofAnnotated annotator rules roots) Memory.start = .ok result final ∧
        ¬ result.1.Tainted input

/-- Whether a leaf stops being tainted around a construct of a file, given with the
variable before and after it by their places. -/
def losesTaintAt (file : Node) (followsCalls : Bool) (write before after : Nat)
    (name input : String) : Bool :=
  Outcome.passes (fun _ annotator =>
    let program := Program.ofAnnotated annotator inputRules [file]
    isAroundWrite program (nodeAt file write) (nodeAt file before) (nodeAt file after) name &&
      (Outcome.passes (fun result _ => decide (result.1.Tainted input))
        (withTracer (Tracer.fresh [] followsCalls) (trace (nodeAt file before)) program
          Memory.start) &&
      Outcome.passes (fun result _ => decide (¬ result.1.Tainted input))
        (withTracer (Tracer.fresh [] followsCalls) (trace (nodeAt file after)) program
          Memory.start)))
    ([file].mapM Annotation.annotateProgram Annotation.Annotator.start)

theorem losesTaint_of_losesTaintAt {file : Node} {write before after : Nat}
    (distinct : KeysDistinct [file]) (notInput : inputRules.isInputVariable name = false)
    (passed : losesTaintAt file followsCalls write before after name input = true) :
    LosesTaint inputRules followsCalls [file] name input := by
  obtain ⟨ends, annotator, annotated, passed⟩ := Outcome.exists_of_passes passed
  simp only [Bool.and_eq_true] at passed
  obtain ⟨around, before, after⟩ := passed
  obtain ⟨former, written, around⟩ := exists_aroundWrite
    (.of_annotated annotated inputRules) distinct (nodeAt_mem file write) around
  obtain ⟨earlier, _, ended, tainted⟩ := Outcome.exists_of_passes before
  obtain ⟨result, _, finished, lost⟩ := Outcome.exists_of_passes after
  exact ⟨ends, annotator, _, _, _, former, written, annotated, around, notInput,
    ⟨earlier, _, ended, of_decide_eq_true tainted⟩, result, _, finished, of_decide_eq_true lost⟩

/-- A name with two bindings: the second reading of `$v` in `cachedFile` finds `$x` as
it is at the write. And functions that are followed: in `mutualFile` they call each
other, and the summary of the one that is entered second lacks what the other returns;
in `droppedFile` the argument is followed to definitions that lead back to themselves,
and is then dropped with what they were found to hold. -/
theorem part_write_loses_taint :
    (KeysDistinct [cachedFile] ∧
      forall followsCalls, LosesTaint inputRules followsCalls [cachedFile] "$v" "$_GET") ∧
    (KeysDistinct [mutualFile] ∧ LosesTaint inputRules true [mutualFile] "$v" "$_GET") ∧
    KeysDistinct [droppedFile] ∧ LosesTaint inputRules true [droppedFile] "$v" "$_GET" := by
  have cached : KeysDistinct [cachedFile] := by
    unfold KeysDistinct
    decide +kernel
  have mutualKeys : KeysDistinct [mutualFile] := by
    unfold KeysDistinct
    decide +kernel
  have dropped : KeysDistinct [droppedFile] := by
    unfold KeysDistinct
    decide +kernel
  have notInput : inputRules.isInputVariable "$v" = false := by decide +kernel
  refine ⟨⟨cached, fun followsCalls => ?_⟩, ⟨mutualKeys, ?_⟩, dropped, ?_⟩
  · refine losesTaint_of_losesTaintAt cached notInput
      (show losesTaintAt cachedFile followsCalls 17 15 23 "$v" "$_GET" = true from ?_)
    cases followsCalls <;> decide +kernel
  · exact losesTaint_of_losesTaintAt mutualKeys notInput
      (show losesTaintAt mutualFile true 39 37 49 "$v" "$_GET" = true by decide +kernel)
  · exact losesTaint_of_losesTaintAt dropped notInput
      (show losesTaintAt droppedFile true 23 21 33 "$v" "$_GET" = true by decide +kernel)

end PhpTaint.Flow
