import PhpTaint.Findings.Search
import PhpTaint.Proofs.Flow.Comments

/-!
# Searching without comments

A comment is no sink, and a sink does not check the comments among its parts. So
a search of undisturbed files finds what a search of the same files without their
comments finds, and it skips the same files: `search_stripped`. Where a comment
stands in a place by which a part is told, the search takes it for that part.
-/

namespace PhpTaint.Findings

open Annotation PhpTaint.Flow Json Rules Scopes Syntax

variable {program bare : Program}

section Checking

/-- Picking an entry goes before changing all of them. -/
theorem elementAt_map {α β : Type} (items : List α) (image : α -> β) (position : Int) :
    elementAt (items.map image) position = (elementAt items position).map image := by
  unfold elementAt
  simp only [List.length_map, List.getElem?_map]
  generalize (if position < 0 then position + Int.ofNat items.length else position) = index
  by_cases before : index < 0
  · rw [if_pos before, if_pos before]
    rfl
  · rw [if_neg before, if_neg before]
    cases items[index.toNat]? <;> rfl

/-- The argument at a position is the same one without comments. -/
theorem argumentAt_stripped (arguments : List Node) (position : Value) :
    argumentAt (arguments.map Node.stripped) position =
      (argumentAt arguments position).map (Option.map Node.stripped) := by
  have pick : forall index : Int,
      (if index < Int.ofNat (arguments.map Node.stripped).length then
        (elementAt (arguments.map Node.stripped) index).map some else .ok none) =
      (if index < Int.ofNat arguments.length then (elementAt arguments index).map some
        else .ok none : Except Fault (Option Node)).map (Option.map Node.stripped) := by
    intro index
    rw [elementAt_map, List.length_map]
    split
    · cases elementAt arguments index <;> rfl
    · rfl
  unfold argumentAt
  split
  · exact pick _
  · exact pick _
  · rw [List.length_map]
    split <;> rfl
  · rfl

/-- The arguments at all positions are the same ones without comments. -/
theorem mapM_argumentAt_stripped (arguments : List Node) (positions : List Value) :
    positions.mapM (argumentAt (arguments.map Node.stripped)) =
      (positions.mapM (argumentAt arguments)).map (List.map (Option.map Node.stripped)) := by
  induction positions with
  | nil => rfl
  | cons position rest inductionHypothesis =>
      rw [List.mapM_cons, List.mapM_cons, inductionHypothesis, argumentAt_stripped]
      cases argumentAt arguments position with
      | error fault => rfl
      | ok chosen => cases rest.mapM (argumentAt arguments) <;> rfl

/-- A sink checks the same arguments without comments. -/
theorem checkedArguments_stripped (sink : SinkRule) (arguments : List Node) :
    checkedArguments sink (arguments.map Node.stripped) =
      (checkedArguments sink arguments).map (List.map Node.stripped) := by
  unfold checkedArguments
  split
  · cases listedPositions sink.positions with
    | error fault => rfl
    | ok positions =>
        show (positions.mapM (argumentAt (arguments.map Node.stripped)) >>= fun chosen =>
          pure (chosen.filterMap id)) = _
        rw [mapM_argumentAt_stripped]
        show _ = (positions.mapM (argumentAt arguments) >>= fun chosen =>
          pure (chosen.filterMap id)).map (List.map Node.stripped)
        cases positions.mapM (argumentAt arguments) with
        | error fault => rfl
        | ok chosen =>
            refine congrArg Except.ok ?_
            show (chosen.map (Option.map Node.stripped)).filterMap id =
              (chosen.filterMap id).map Node.stripped
            rw [List.filterMap_map, List.map_filterMap]
            rfl
  · rfl

/-- What is picked from a list is one of its entries. -/
theorem mem_of_elementAt {α : Type} {items : List α} {position : Int} {item : α}
    (found : elementAt items position = .ok item) : item ∈ items := by
  unfold elementAt at found
  generalize (if position < 0 then position + Int.ofNat items.length else position) = index at found
  by_cases before : index < 0
  · rw [if_pos before] at found
    cases found
  · rw [if_neg before] at found
    cases listed : items[index.toNat]? with
    | none => rw [listed] at found; cases found
    | some other =>
        rw [listed] at found
        cases found
        exact List.mem_of_getElem? listed

/-- The argument at a position is one of the arguments. -/
theorem mem_of_argumentAt {arguments : List Node} {position : Value} {argument : Node}
    (found : argumentAt arguments position = .ok (some argument)) : argument ∈ arguments := by
  have pick : forall index : Int,
      (if index < Int.ofNat arguments.length then (elementAt arguments index).map some
        else .ok none : Except Fault (Option Node)) = .ok (some argument) ->
      argument ∈ arguments := by
    intro index picked
    split at picked
    · cases element : elementAt arguments index with
      | error fault => rw [element] at picked; cases picked
      | ok item =>
          rw [element] at picked
          cases picked
          exact mem_of_elementAt element
    · cases picked
  unfold argumentAt at found
  split at found
  · exact pick _ found
  · exact pick _ found
  · split at found <;> cases found
  · cases found

/-- The arguments at some positions are among the arguments. -/
theorem mem_of_mapM_argumentAt {arguments : List Node} {positions : List Value}
    {chosen : List (Option Node)} (found : positions.mapM (argumentAt arguments) = .ok chosen)
    {argument : Node} (member : some argument ∈ chosen) : argument ∈ arguments := by
  induction positions generalizing chosen with
  | nil =>
      cases found
      cases member
  | cons position rest inductionHypothesis =>
      rw [List.mapM_cons] at found
      cases first : argumentAt arguments position with
      | error fault => rw [first] at found; cases found
      | ok head =>
          rw [first] at found
          cases later : rest.mapM (argumentAt arguments) with
          | error fault => rw [later] at found; cases found
          | ok others =>
              rw [later] at found
              cases found
              rcases List.mem_cons.1 member with rfl | below
              · exact mem_of_argumentAt first
              · exact inductionHypothesis later below

/-- A sink checks arguments of the call and nothing else. -/
theorem mem_of_checkedArguments {sink : SinkRule} {arguments checked : List Node}
    (found : checkedArguments sink arguments = .ok checked) {argument : Node}
    (member : argument ∈ checked) : argument ∈ arguments := by
  unfold checkedArguments at found
  split at found
  · cases listed : listedPositions sink.positions with
    | error fault => rw [listed] at found; cases found
    | ok positions =>
        rw [listed] at found
        cases chosen : positions.mapM (argumentAt arguments) with
        | error fault =>
            simp only [bind, Except.bind, chosen] at found
            cases found
        | ok selected =>
            simp only [bind, Except.bind, chosen] at found
            cases found
            obtain ⟨entry, entryMember, rfl⟩ := List.mem_filterMap.1 member
            exact mem_of_mapM_argumentAt chosen entryMember
  · cases found
    exact member

/-- The checked expressions of a node without comments are those of the node. -/
theorem sinkArguments_stripped (rules : RuleSet) {node : Node} (undisturbed : node.Undisturbed) :
    sinkArguments rules node.stripped =
      (sinkArguments rules node).map (List.map fun checked =>
        (checked.1, checked.2.map Node.stripped)) := by
  unfold sinkArguments
  rw [node.kind_stripped, node.form_stripped, undisturbed.calleeName_stripped]
  cases constructSink? node.kind with
  | some construct =>
      dsimp only
      cases rules.sink? construct with
      | none => rfl
      | some sink =>
          have parts := @Node.filter_namedChildren_stripped node (fun kind => kind ≠ "comment") rfl
          dsimp only
          rw [parts]
          simp [pure, Except.pure, Except.map, Function.comp_def]
  | none =>
      dsimp only
      split
      · rfl
      · cases rules.sink? node.calleeName with
        | none => rfl
        | some sink =>
            dsimp only
            split
            · rw [undisturbed.arguments_stripped, checkedArguments_stripped]
              cases chosen : checkedArguments sink node.arguments with
              | error fault => rfl
              | ok arguments =>
                  refine congrArg Except.ok ?_
                  rw [List.map_map, List.map_map]
                  refine List.map_congr_left fun argument member => ?_
                  have inside : argument.Undisturbed :=
                    undisturbed.of_inside (.of_mem_arguments (mem_of_checkedArguments chosen member))
                  exact congrArg (Prod.mk sink) inside.argumentValue_stripped
            · rfl

/-- What holds of the comments in a node holds of those in its checked arguments. -/
theorem undisturbed_of_sinkArguments {rules : RuleSet} {node : Node}
    (undisturbed : node.Undisturbed) {checked : List (SinkRule × Option Node)}
    (found : sinkArguments rules node = .ok checked) {sink : SinkRule} {expression : Node}
    (member : (sink, some expression) ∈ checked) : expression.Undisturbed := by
  unfold sinkArguments at found
  split at found
  · split at found
    · cases found
      obtain ⟨part, partMember, same⟩ := List.mem_map.1 member
      cases same
      exact undisturbed.of_mem_namedChildren (List.mem_filter.1 partMember).1
    · cases found
      cases member
  · split at found
    · cases found
      cases member
    · split at found
      · rename_i rule _
        split at found
        · cases chosen : checkedArguments rule node.arguments with
          | error fault => rw [chosen] at found; cases found
          | ok arguments =>
              rw [chosen] at found
              cases found
              obtain ⟨argument, argumentMember, same⟩ := List.mem_map.1 member
              have inside : argument.Undisturbed := undisturbed.of_inside
                (.of_mem_arguments (mem_of_checkedArguments chosen argumentMember))
              exact inside.of_argumentValue (Prod.mk.inj same).2
        · cases found
          cases member
      · cases found
        cases member

/-- Two verdicts on the same leaves. -/
structure Verdict.Resembles (first second : Verdict) : Prop where
  reported : List.Forall₂ SameLeaf first.reported second.reported
  confidence : second.confidence = first.confidence

/-- A leaf is judged in the same way with and without comments. -/
theorem judgeLeaf_beside (programs : program.Resembles bare) (includeUnknown : Bool) (node : Node)
    (sink : SinkRule) {first second : Verdict} (verdicts : first.Resembles second)
    {record other : LeafRecord} (same : SameLeaf record other) :
    Beside program bare Verdict.Resembles (judgeLeaf includeUnknown node sink first record)
      (judgeLeaf includeUnknown node.stripped sink second other) := by
  have counted : forall sure : Bool, Verdict.Resembles
      ⟨first.reported ++ [record], if sure then .high else first.confidence⟩
      ⟨second.reported ++ [other], if sure then .high else second.confidence⟩ := fun sure =>
    ⟨List.rel_append verdicts.reported (.cons same .nil), by rw [verdicts.confidence]⟩
  unfold judgeLeaf
  rw [same.level, same.common, same.name, node.line_stripped]
  refine Beside.ite (fun _ => Beside.pure verdicts) fun _ => Beside.read ?_
  rw [programs.rules]
  refine Beside.bind_eq (Beside.orFault (.refl _)) fun protection => ?_
  cases protection with
  | strong =>
      exact Beside.bind_eq
        (Beside.modify fun _ _ before => ⟨before.tracer, before.summaries, before.inProgress⟩)
        fun _ => Beside.pure verdicts
  | weak => exact Beside.pure (counted _)
  | absent => exact Beside.pure (counted _)

/-- The same leaves have the same taint. -/
theorem levels_eq {reported others : List LeafRecord} (same : List.Forall₂ SameLeaf reported others) :
    others.map Record.level = reported.map Record.level := by
  induction same with
  | nil => rfl
  | cons head _ inductionHypothesis =>
      rw [List.map_cons, List.map_cons, inductionHypothesis, head.level]

/-- An argument gives the same findings with and without comments. -/
theorem checkArgument_beside (programs : program.Resembles bare) (includeUnknown : Bool)
    (node : Node) (sink : SinkRule) {argument : Option Node}
    (undisturbed : forall expression, argument = some expression -> expression.Undisturbed) :
    Beside program bare Eq (checkArgument includeUnknown node sink argument)
      (checkArgument includeUnknown node.stripped sink (argument.map Node.stripped)) := by
  unfold checkArgument
  cases argument with
  | none => exact Beside.pure rfl
  | some expression =>
      refine (traceInPlace_beside programs (undisturbed expression rfl)).bind
        fun deps other same => ?_
      have judged : forall records others, List.Forall₂ SameLeaf records others ->
          forall first second, Verdict.Resembles first second ->
          Beside program bare Verdict.Resembles
            (records.foldlM (judgeLeaf includeUnknown node sink) first)
            (others.foldlM (judgeLeaf includeUnknown node.stripped sink) second) := by
        intro records others leaves
        induction leaves with
        | nil => exact fun _ _ verdicts => Beside.pure verdicts
        | cons head _ inductionHypothesis =>
            intro first second verdicts
            rw [List.foldlM_cons, List.foldlM_cons]
            exact (judgeLeaf_beside programs includeUnknown node sink verdicts head).bind
              inductionHypothesis
      refine (judged _ _ same.values_forall₂ _ _ ⟨.nil, rfl⟩).bind fun first second verdicts => ?_
      have empty : second.reported.isEmpty = first.reported.isEmpty := by
        rw [← List.isEmpty_map (f := Record.level), levels_eq verdicts.reported, List.isEmpty_map]
      rw [empty]
      refine Beside.ite (fun _ => Beside.pure rfl) fun _ => Beside.pure ?_
      rw [levels_eq verdicts.reported, Dependencies.sanitizers_of_resembles same,
        verdicts.confidence, node.line_stripped, node.text_stripped, node.file_stripped]

/-- A node adds the same findings with and without comments. -/
theorem searchNode_beside (programs : program.Resembles bare) (includeUnknown : Bool)
    {node : Node} (undisturbed : node.Undisturbed) (findings : List Finding) :
    Beside program bare Eq (searchNode includeUnknown findings node)
      (searchNode includeUnknown findings node.stripped) := by
  unfold searchNode
  refine Beside.read ?_
  rw [programs.rules, sinkArguments_stripped program.rules undisturbed]
  cases found : sinkArguments program.rules node with
  | error fault => exact Beside.throw fault
  | ok checked =>
      refine Beside.foldlM_map (fun pair member current _ same => ?_) rfl
      subst same
      obtain ⟨sink, argument⟩ := pair
      refine Beside.bind_eq (checkArgument_beside programs includeUnknown node sink ?_) fun found =>
        ?_
      · rintro expression rfl
        exact undisturbed_of_sinkArguments undisturbed found member
      · cases found <;> exact Beside.pure rfl

/-- Nothing is checked at a comment. -/
theorem searchNode_of_isComment (includeUnknown : Bool) {node : Node}
    (comment : node.isComment = true) (findings : List Finding) :
    Beside program bare Eq (searchNode includeUnknown findings node) (pure findings) := by
  have nothing : forall rules, sinkArguments rules node = .ok [] := by
    intro rules
    have form : node.form ≠ .call := by
      unfold Node.form
      rw [Node.kind_of_isComment comment]
      decide
    have construct : constructSink? node.kind = none := by
      rw [Node.kind_of_isComment comment]
      rfl
    unfold sinkArguments
    rw [construct]
    simp [form, pure, Except.pure]
  unfold searchNode
  show Tandem Memory.Resembles Eq ((orFault (sinkArguments program.rules node) >>= _) program) _
  rw [nothing]
  exact Tandem.pure rfl

/-- The findings of an undisturbed file are those of the file without its
comments. -/
theorem searchProgram_beside (programs : program.Resembles bare) (includeUnknown : Bool)
    {root : Node} (undisturbed : root.Undisturbed) :
    Beside program bare Eq (searchProgram includeUnknown root)
      (searchProgram includeUnknown root.stripped) := by
  unfold searchProgram
  rw [undisturbed.descendants_stripped]
  refine Beside.foldlM_filter (fun node member _ findings _ same => ?_)
    (fun node _ dropped findings _ same => ?_) rfl
  · subst same
    obtain ⟨tree, below, rfl⟩ := List.mem_map.1 member
    have inside : root.withTree tree ∈ root.preorder := by
      refine List.mem_map_of_mem ?_
      rw [Tree.preorder_eq_cons_descendants]
      exact List.mem_cons_of_mem _ below
    exact searchNode_beside programs includeUnknown (undisturbed.of_mem_preorder inside) findings
  · subst same
    exact searchNode_of_isComment includeUnknown (by simpa using dropped) findings

end Checking

/-- Constructs that no comment can be are counted without the comments. -/
theorem countConstructs_stripped {test : Tree -> Bool} {roots : List Node}
    (undisturbed : forall root, root ∈ roots -> root.Undisturbed)
    (refuses : forall part : Tree, part.CommentsAside -> part.isComment = true ->
      test part = false)
    (same : forall part : Tree, test part.stripped = test part) :
    countConstructs test (roots.map Node.stripped) = countConstructs test roots := by
  unfold countConstructs
  induction roots with
  | nil => rfl
  | cons root rest inductionHypothesis =>
      have here := Tree.countP_preorder_stripped (undisturbed root (List.mem_cons_self ..)) refuses
        same
      have later := inductionHypothesis fun other member =>
        undisturbed other (List.mem_cons_of_mem _ member)
      rw [List.map_cons, List.flatMap_cons, List.flatMap_cons, List.countP_append,
        List.countP_append, later, Node.tree_stripped, here]

/-- Without comments trees are as high as with them. -/
theorem heightAll_stripped {roots : List Node}
    (undisturbed : forall root, root ∈ roots -> root.Undisturbed) :
    Tree.heightAll ((roots.map Node.stripped).map Node.tree) =
      Tree.heightAll (roots.map Node.tree) := by
  induction roots with
  | nil => rfl
  | cons root rest inductionHypothesis =>
      have here := Tree.height_stripped (undisturbed root (List.mem_cons_self ..))
      have later := inductionHypothesis fun other member =>
        undisturbed other (List.mem_cons_of_mem _ member)
      simp only [List.map_cons, Tree.heightAll, Node.tree_stripped]
      rw [here, later]

/-- The bound on the nesting of flows does not depend on comments. -/
theorem depthBound_stripped {roots : List Node}
    (undisturbed : forall root, root ∈ roots -> root.Undisturbed) :
    depthBound (roots.map Node.stripped) = depthBound roots := by
  have kind : forall part : Tree, part.isComment = true -> part.kind = "comment" :=
    fun _ comment => of_decide_eq_true comment
  unfold depthBound
  rw [heightAll_stripped undisturbed,
    countConstructs_stripped undisturbed
      (fun part _ comment => by rw [kind part comment]; decide) (fun part => by simp),
    countConstructs_stripped undisturbed
      (fun part _ comment => by rw [kind part comment]; rfl) (fun part => by simp),
    countConstructs_stripped undisturbed
      (fun part aside comment => by rw [(aside.bare comment).2]; decide) (fun part => by simp)]

/-- Two intakes side by side. -/
structure Intake.Resembles (first second : Intake) : Prop where
  annotator : first.annotator.Resembles second.annotator
  accepted : second.accepted = first.accepted.map Node.stripped
  undisturbed : forall root, root ∈ first.accepted -> root.Undisturbed
  errors : second.errors = first.errors

/-- A file is annotated and accepted on both sides, or skipped on both. -/
theorem takeIn_tandem {root : Node} (undisturbed : root.Undisturbed) :
    Tandem Intake.Resembles Eq (takeIn root) (takeIn root.stripped) := by
  intro first second before
  unfold takeIn
  have ended := annotateProgram_tandem undisturbed _ _ before.annotator
  generalize annotateProgram root first.annotator = outcome at ended
  generalize annotateProgram root.stripped second.annotator = other at ended
  cases ended with
  | ok _ after =>
      refine .ok rfl ⟨after, by simp [before.accepted], fun other member => ?_, before.errors⟩
      rcases List.mem_append.1 member with earlier | last
      · exact before.undisturbed other earlier
      · cases List.mem_singleton.1 last
        exact undisturbed
  | error fault after =>
      dsimp only
      by_cases structural : fault.isStructural = true
      · rw [if_pos structural, if_pos structural]
        refine .ok rfl ⟨⟨(after.registry.write_left _).write_right _, after.globalScope, after.stack⟩,
          before.accepted, before.undisturbed, ?_⟩
        simp [before.errors]
      · rw [if_neg structural, if_neg structural]
        exact .error fault ⟨after, before.accepted, before.undisturbed, before.errors⟩

/-- Two searches side by side. -/
structure Progress.Resembles (first second : Progress) : Prop where
  findings : second.findings = first.findings
  errors : second.errors = first.errors
  memory : first.memory.Resembles second.memory

/-- A file has the same findings with and without comments. -/
theorem searchInto_tandem (programs : program.Resembles bare) (includeUnknown : Bool) {root : Node}
    (undisturbed : root.Undisturbed) :
    Tandem Progress.Resembles Eq (searchInto includeUnknown program root)
      (searchInto includeUnknown bare root.stripped) := by
  intro first second before
  unfold searchInto
  have ended := searchProgram_beside programs includeUnknown undisturbed _ _ before.memory
  generalize searchProgram includeUnknown root program first.memory = outcome at ended
  generalize searchProgram includeUnknown root.stripped bare second.memory = other at ended
  cases ended with
  | ok same after =>
      subst same
      exact .ok rfl ⟨by rw [before.findings], before.errors, after⟩
  | error fault after =>
      dsimp only
      by_cases structural : fault.isStructural = true
      · rw [if_pos structural, if_pos structural]
        exact .ok rfl ⟨before.findings, by simp [before.errors],
          ⟨after.tracer, after.summaries, after.inProgress⟩⟩
      · rw [if_neg structural, if_neg structural]
        exact .error fault ⟨before.findings, before.errors, after⟩

/-- A search finds the same without the comments of the files, and it skips the
same files. -/
theorem search_stripped (rules : RuleSet) (includeUnknown : Bool)
    (errors : List (String × String)) (journal : Journal) {roots : List Node}
    (undisturbed : forall root, root ∈ roots -> root.Undisturbed) :
    (search rules includeUnknown errors journal (roots.map Node.stripped)).findings =
        (search rules includeUnknown errors journal roots).findings ∧
      (search rules includeUnknown errors journal (roots.map Node.stripped)).errors =
        (search rules includeUnknown errors journal roots).errors := by
  have taken := Tandem.forM_map (fun root member => takeIn_tandem (undisturbed root member))
    ⟨_, [], errors⟩ ⟨_, [], errors⟩
    ⟨Annotator.start_resembles journal journal, rfl, (fun _ member => nomatch member), rfl⟩
  unfold search
  dsimp only
  generalize roots.forM takeIn _ = outcome at taken
  generalize (roots.map Node.stripped).forM takeIn _ = other at taken
  cases taken with
  | error fault after => exact ⟨rfl, after.errors⟩
  | @ok _ _ intake bareIntake _ after =>
      have programs : (Program.ofAnnotated intake.annotator rules roots).Resembles
          (Program.ofAnnotated bareIntake.annotator rules (roots.map Node.stripped)) :=
        ⟨after.annotator.registry, after.annotator.globalScope, rfl,
          depthBound_stripped undisturbed⟩
      have searched := Tandem.forM_map
        (fun root member => searchInto_tandem programs includeUnknown
          (after.undisturbed root member))
        ⟨[], intake.errors, { Memory.start with journal := intake.annotator.registry.journal }⟩
        ⟨[], bareIntake.errors,
          { Memory.start with journal := bareIntake.annotator.registry.journal }⟩
        ⟨rfl, after.errors, ⟨.fresh [] false, .empty, rfl⟩⟩
      dsimp only
      rw [after.accepted]
      generalize (intake.accepted.forM (searchInto includeUnknown _) :
        EStateM Fault Progress PUnit) _ = searchOutcome at searched ⊢
      generalize ((intake.accepted.map Node.stripped).forM (searchInto includeUnknown _) :
        EStateM Fault Progress PUnit) _ = searchOther at searched ⊢
      cases searched with
      | ok _ ended => exact ⟨congrArg Except.ok ended.findings, ended.errors⟩
      | error fault ended => exact ⟨rfl, ended.errors⟩

/-- Rules with the input `$_GET` and the sink `echo`. -/
def echoRules : RuleSet :=
  { sources :=
      Table.empty.insert (.text "$_GET") ⟨.text "$_GET", .text "$_GET", variableCategory, .null⟩
    sinks := Table.empty.insert "echo"
      ⟨"echo", .text "XSS", .text "HIGH", .null, .text "CWE-79", .text "construct", .null⟩
    sanitizers := ∅
    reverses := ∅ }

/-- The lines and sinks of what a search has found. -/
def Outcome.places (outcome : Outcome) : Option (List (Nat × String)) :=
  match outcome.findings with
  | .ok findings => some (findings.map fun finding => (finding.line, finding.sink))
  | .error _ => none

/-- The file `<?php /* in */ $v = $_GET; // all`, followed by a line
`echo /* out */ $v;`. -/
def commentedFile : Node :=
  ⟨⟨"commented.php", "<?php /* in */ $v = $_GET; // all\necho /* out */ $v;".toUTF8⟩,
    .node "program" true 0 52 "" [
      .node "php_tag" true 0 5 "" [],
      .node "comment" true 6 14 "" [],
      .node "expression_statement" true 15 26 "" [
        .node "assignment_expression" true 15 25 "" [
          .node "variable_name" true 15 17 "left" [],
          .node "variable_name" true 20 25 "right" []]],
      .node "comment" true 27 33 "" [],
      .node "echo_statement" true 34 52 "" [
        .node "comment" true 39 48 "" [],
        .node "variable_name" true 49 51 "" []]]⟩

/-- The comments of `commentedFile` stand aside, so the finding in its second line
is the one without them. -/
theorem search_stripped_commented :
    (forall root, root ∈ [commentedFile] -> root.Undisturbed) ∧
      (commentedFile.descendants.countP Node.isComment = 3 ∧
        commentedFile.stripped.descendants.countP Node.isComment = 0) ∧
      (search echoRules false [] [] [commentedFile]).places = some [(2, "echo")] ∧
      (search echoRules false [] [] [commentedFile.stripped]).places = some [(2, "echo")] := by
  have undisturbed : forall root, root ∈ [commentedFile] -> root.Undisturbed := by
    intro root member
    cases List.mem_singleton.1 member
    decide +kernel
  have same := (search_stripped echoRules false [] [] undisturbed).1
  have found : (search echoRules false [] [] [commentedFile]).places = some [(2, "echo")] := by
    decide +kernel
  refine ⟨undisturbed, by decide +kernel, found, ?_⟩
  rw [← found]
  exact congrArg (fun findings => Outcome.places ⟨findings, [], []⟩) same

/-- The file `<?php foreach (/* all */ $_GET as $v) { echo $v; }`. -/
def iteratedFile : Node :=
  ⟨⟨"comment.php", "<?php foreach (/* all */ $_GET as $v) \x7b echo $v; \x7d".toUTF8⟩,
    .node "program" true 0 50 "" [
      .node "php_tag" true 0 5 "" [],
      .node "foreach_statement" true 6 50 "" [
        .node "comment" true 15 24 "" [],
        .node "variable_name" true 25 30 "" [],
        .node "variable_name" true 34 36 "" [],
        .node "compound_statement" true 38 50 "body" [
          .node "echo_statement" true 40 48 "" [
            .node "variable_name" true 45 47 "" []]]]]⟩

/-- A comment in front of what is iterated is taken for it: the input that is
printed in the body of `iteratedFile` is found without the comment only. -/
theorem search_misses_iterated_comment :
    (search echoRules false [] [] [iteratedFile]).places = some [] ∧
      (search echoRules false [] [] [iteratedFile.stripped]).places = some [(1, "echo")] := by
  constructor
  · decide +kernel
  · decide +kernel

end PhpTaint.Findings
