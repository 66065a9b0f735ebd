import PhpTaint.Proofs.Flow.Deepening
import PhpTaint.Proofs.Flow.Depth
import PhpTaint.Proofs.Flow.Visited

/-!
# Traces that follow no calls end

A trace that does not follow calls descends in an expression or begins to follow a
definition that is not being followed. There are finitely many definitions and every tree
has finite height, so the trace ends, however the definitions feed back into each other.
That holds of every state in which an analysis can be and of every expression, also of one
that no file contains. `trace_ends_without_calls` states it with a bound on the nesting.
-/

namespace PhpTaint.Flow

open Scopes Syntax Rules
open Annotation (annotateProgram Annotator walkedNodes mem_walkedNodes_iff
  mem_nodesOf_of_mem_walkedNodes)

variable {α β : Type} {program : Program} {memory : Memory}

section Keys

/-- Every summary is kept under the key of its declaration. -/
def Memory.Keyed (memory : Memory) : Prop :=
  forall key summary, memory.summaries.find? key = some summary -> summary.declaration.key = key

/-- However a step ends, summaries stay under the keys of their declarations. -/
abbrev KeepsKeyed (program : Program) (step : Tracing α) : Prop :=
  Advances (fun before after => before.Keyed -> after.Keyed) program step

/-- Every step of a run keeps summaries under the keys of their declarations. -/
theorem keyed_advance : Advance fun before after : Memory => before.Keyed -> after.Keyed where
  refl _ keyed := keyed
  trans _ _ _ first second keyed := second (first keyed)
  tracer _ _ _ _ kept keyed := kept keyed
  remark _ _ keyed := keyed

/-- A summary is kept under the key of its declaration. -/
theorem Memory.Keyed.keepSummary (keyed : memory.Keyed) {declaration : Node} {summary : Summary}
    (same : summary.declaration = declaration) :
    (memory.keepSummary declaration summary).Keyed := by
  intro key other listed
  change (memory.summaries.insert declaration.key summary).find? key = some other at listed
  rw [Table.find?_insert] at listed
  split at listed
  · rename_i at_key
    cases listed
    rw [same, at_key]
  · exact keyed key other listed

/-- Asking for a summary keeps it under the key of its declaration. -/
theorem keepsKeyed_summaryOf {trace : Node -> Tracing Deps} {declaration : Node}
    (returns : forall body, declaration.child? "body" = some body ->
      KeepsKeyed program (traceReturns trace declaration body)) :
    KeepsKeyed program (summaryOf trace declaration) := by
  intro memory keyed
  refine Concludes.memory_iff.1 (Concludes.summaryOf_iff.2 ?_)
  cases present : memory.summaries.find? declaration.key with
  | some summary => exact keyed
  | none =>
      cases found : declaration.child? "body" with
      | none => exact (Concludes.buildSummary_without_body_iff found).2 (keyed.keepSummary rfl)
      | some body =>
          have traced : Concludes program (memory.enter declaration)
              (traceReturns trace declaration body) (fun _ after => after.Keyed)
              fun _ after => after.Keyed :=
            Concludes.memory_iff.2 (returns body found (memory.enter declaration) keyed)
          refine (Concludes.buildSummary_iff found).2 (traced.mono ?_ fun _ _ left => left)
          intro result after keyed
          have noted : ((after.leave memory declaration).note
            (summaryNote declaration result)).Keyed := keyed
          exact noted.keepSummary rfl

/-- A uniform step keeps summaries under the keys of their declarations. -/
theorem visitor_keepsKeyed (depth : Nat) {step : Visitor -> Tracing α}
    (uniform : Uniform program (fun _ => True) step) :
    KeepsKeyed program (step (visitor depth)) := by
  induction depth generalizing α with
  | zero =>
      refine uniform.advances keyed_advance (fun node => ?_) (fun name node => ?_)
        fun _ _ returns memory _ => keepsKeyed_summaryOf returns memory
      · exact keyed_advance.refl
      · exact keyed_advance.refl
  | succ depth inductionHypothesis =>
      refine uniform.advances keyed_advance (fun node => ?_) (fun name node => ?_)
        fun _ _ returns memory _ => keepsKeyed_summaryOf returns memory
      · exact inductionHypothesis (Uniform.traceNode node fun _ _ _ _ _ => trivial)
      · exact inductionHypothesis (Uniform.traceDefinition name node)

/-- Demands are met by steps that keep summaries under their keys. -/
theorem keepsKeyed_closed (program : Program) : Demand.Closed program (KeepsKeyed program) where
  pure _ _ keyed := keyed
  orFault result _ keyed := by cases result <;> exact keyed
  read _ kept := kept
  bind _ _ begins continues := .bind keyed_advance begins continues
  withTracer tracer step kept memory keyed := by
    have later := kept (memory.withTracer tracer) keyed
    rw [run_withTracer]
    cases run : step program (memory.withTracer tracer) with
    | ok value after | error fault after =>
        rw [run] at later
        exact later
  visits _ uniform := visitor_keepsKeyed program.depth uniform
  summaries declaration := keepsKeyed_summaryOf fun body _ =>
    visitor_keepsKeyed program.depth (Uniform.traceReturns declaration body)

/-- Whatever an analysis is asked, its summaries are kept under the keys of their
declarations. -/
theorem Desk.following_keyed (program : Program) (requests : List Request) :
    (Desk.following program requests).memory.Keyed := by
  induction requests using List.reverseRecOn with
  | nil => rintro key summary ⟨⟩
  | append_singleton requests request inductionHypothesis =>
      rw [Desk.following_append]
      exact (keepsKeyed_closed program).perform request.demand _ inductionHypothesis

end Keys

section Strangers

variable {nodes more : List Node}

/-- A binding that suits some nodes suits more. -/
theorem suits_mono (included : nodes ⊆ more) {name : String} {binding : Binding Node}
    (suits : binding.Suits nodes name) : binding.Suits more name := by
  cases binding with
  | referent node => exact ⟨included suits.1, suits.2⟩
  | globalReference target node owner => exact suits
  | parameter | superglobal | unset => exact trivial

/-- Scopes that are in order for some nodes are so for more of them. -/
theorem Grounded.mono (grounded : Grounded nodes program) (included : nodes ⊆ more) :
    Grounded more program := by
  refine ⟨{ grounded.sound with bindings := ?_, functions := ?_ }, grounded.places⟩
  · intro id scope name binding present found
    exact suits_mono included (grounded.sound.bindings id scope name binding present found)
  · intro id name node found
    obtain ⟨member, isFunction⟩ := grounded.sound.functions id name node found
    exact ⟨included member, isFunction⟩

/-- What is walked is walked beside other files, too. -/
theorem walkedNodes_subset_append (others roots : List Node) :
    walkedNodes roots ⊆ walkedNodes (others ++ roots) := by
  intro node member
  unfold walkedNodes
  rw [List.flatMap_append]
  exact List.mem_append_right _ member

end Strangers

section Desks

variable {roots : List Node} {desk : Desk} {node : Node}

/-- What an analysis has learned points to nodes of the files, whichever tracer sees the
next request. -/
theorem Desk.Holds.coherent (holds : desk.Holds (anywhere roots)) (keyed : desk.memory.Keyed)
    (seat : Seat) : Coherent (nodesOf roots) (desk.memory.withTracer (desk.tracerAt seat)) := by
  refine ⟨?_, ?_⟩
  · intro name record found
    have suits := (holds.tracerAt seat).records name record found
    refine ⟨suits.named, fun binding bound => ?_⟩
    exact suits_mono (fun _ => mem_nodesOf_of_mem_walkedNodes) (suits.bound binding bound)
  · intro key summary found
    exact ⟨(holds.memory.sums key summary found).declares, keyed key summary found⟩

/-- A trace that follows no calls does not go too deep where the bound of the files
admits it. -/
theorem traceWithin_safe_without_calls (grounded : Grounded (nodesOf roots) program)
    (coherent : Coherent (nodesOf roots) memory) (unfollowed : memory.tracer.followsCalls = false)
    (member : node ∈ nodesOf roots) {depth : Nat} (bound : depthBound roots <= depth) :
    Safe (nodesOf roots) (Unannotated (nodesOf roots) program) program memory
      (traceWithin depth node) := by
  -- default values are only met in calls that are followed
  refine (traceWithin_safe grounded depth).trace node memory [] member coherent
    (fun follows => absurd (unfollowed.symm.trans follows) Bool.false_ne_true) ?_
  exact Nat.lt_of_lt_of_le (rank_lt_depthBound (countOpen_le ..) (countOpen_le ..)
    (Nat.sub_le ..) (Nat.le_succ_of_le (height_le_of_mem_nodesOf member))) bound

/-- In files, also together with nodes that are not of them, a trace that follows no calls
ends, and from the bound of these files on the depth does not matter. -/
theorem trace_ends_of_grounded (grounded : Grounded (walkedNodes roots) program)
    {requests : List Request} (declared : forall request, request ∈ requests ->
      forall declaration, request.demand.declaration? = some declaration ->
        declaration ∈ nodesOf roots)
    {seat : Seat} (unfollowed : ((Desk.following program requests).tracerAt seat).followsCalls =
      false) (member : node ∈ nodesOf roots) :
    let desk := Desk.following program requests
    let memory := desk.memory.withTracer (desk.tracerAt seat)
    let ended := traceWithin (depthBound roots) node program memory
    (forall depth, depthBound roots <= depth -> traceWithin depth node program memory = ended) ∧
      ((∃ deps after, ended = .ok deps after) ∨
        ∃ place after, place ∈ nodesOf roots ∧
          ended = .error (.unannotated place.describe) after) := by
  intro desk memory ended
  have everywhere : Grounded (nodesOf roots) program :=
    grounded.mono fun _ => mem_nodesOf_of_mem_walkedNodes
  have holds : desk.Holds (anywhere roots) :=
    Desk.following_holds (anywhere_lawful grounded) fun request listed =>
      within_anywhere grounded (declared request listed)
  have coherent := holds.coherent (Desk.following_keyed program requests) seat
  have safe := traceWithin_safe_without_calls everywhere coherent unfollowed member
    (Nat.le_refl (depthBound roots))
  have faults : forall fault after, ended = .error fault after ->
      ∃ place, place ∈ nodesOf roots ∧ fault = .unannotated place.describe :=
    fun fault after run => everywhere.unannotated (safe.of_error run).1
  refine ⟨fun depth bound => traceWithin_eq_of_le bound ?_, ?_⟩
  · intro after run
    obtain ⟨place, _, same⟩ := faults _ _ run
    cases same
  · cases run : ended with
    | ok deps after => exact Or.inl ⟨deps, after, rfl⟩
    | error fault after =>
        obtain ⟨place, inside, rfl⟩ := faults fault after run
        exact Or.inr ⟨place, after, inside, rfl⟩

end Desks

/-- Whatever an analysis of annotated files has been asked before, also about declarations
from elsewhere, and whatever expression is given to a tracer that does not follow calls: the
trace ends with dependencies or with the fault of a node that was not annotated. No depth
beyond the bound of the files, with the nodes that were given, changes how it ends; if these
are nodes of the files, the bound of the files will do. -/
theorem trace_ends_without_calls {roots : List Node} {ends : List ScopeId} {annotator : Annotator}
    (annotated : roots.mapM annotateProgram Annotator.start = .ok ends annotator)
    (rules : RuleSet) (limit : Nat) (requests : List Request) (seat : Seat) (node : Node) :
    let program : Program := ⟨annotator.registry, annotator.globalScope, rules, limit⟩
    let desk := Desk.following program requests
    let memory := desk.memory.withTracer (desk.tracerAt seat)
    let given := node :: requests.filterMap fun request => request.demand.declaration?
    (desk.tracerAt seat).followsCalls = false ->
    ∃ ended,
      ((∃ deps after, ended = .ok deps after) ∨
        ∃ (place : Node) (after : Memory), ended = .error (.unannotated place.describe) after) ∧
      (forall depth, depthBound (given ++ roots) <= depth ->
        traceWithin depth node program memory = ended) ∧
      ((forall stranger, stranger ∈ given -> stranger ∈ nodesOf roots) ->
        forall depth, depthBound roots <= depth ->
          traceWithin depth node program memory = ended) := by
  intro program desk memory given unfollowed
  have grounded : Grounded (walkedNodes roots) program := .of_walked annotated rules limit
  have isGiven : forall request, request ∈ requests -> forall declaration,
      request.demand.declaration? = some declaration -> declaration ∈ given := by
    intro request listed declaration asked
    exact List.mem_cons_of_mem _ (List.mem_filterMap.2 ⟨request, listed, asked⟩)
  have atRoot : forall stranger, stranger ∈ given -> stranger ∈ nodesOf (given ++ roots) :=
    fun stranger listed => mem_nodesOf_of_root (List.mem_append_left _ listed)
  obtain ⟨stable, shape⟩ := trace_ends_of_grounded
    (grounded.mono (walkedNodes_subset_append given roots))
    (fun request listed declaration asked =>
      atRoot declaration (isGiven request listed declaration asked))
    unfollowed (atRoot node (List.mem_cons_self ..))
  refine ⟨_, ?_, stable, ?_⟩
  · rcases shape with shape | ⟨place, after, _, fault⟩
    · exact Or.inl shape
    · exact Or.inr ⟨place, after, fault⟩
  · intro inFiles depth bound
    obtain ⟨stableInFiles, _⟩ := trace_ends_of_grounded grounded
      (fun request listed declaration asked =>
        inFiles declaration (isGiven request listed declaration asked))
      unfollowed (inFiles node (List.mem_cons_self ..))
    -- both bounds are reached at their maximum
    rw [stableInFiles depth bound, ← stableInFiles _ (Nat.le_max_left _ _),
      stable _ (Nat.le_max_right _ _)]

/-- The variable of `feedbackFile` where it is written to. -/
def feedbackTarget : Tree := .node "variable_name" true 17 19 "left" []

/-- The assignment in `feedbackFile`, with a node in it that has the key of the whole. -/
def feedbackAssignment : Tree :=
  .node "augmented_assignment_expression" true 17 33 "" [
    feedbackTarget,
    .node "augmented_assignment_expression" true 17 33 "right" [
      feedbackTarget,
      .node "binary_expression" true 23 33 "right" [
        .node "variable_name" true 23 25 "left" [],
        .node "variable_name" true 28 33 "right" []]]]

/-- The file `<?php global $x; $x .= $x . $_GET; echo $x;`. -/
def feedbackFile : Node :=
  ⟨⟨"feedback.php", "<?php global $x; $x .= $x . $_GET; echo $x;".toUTF8⟩,
    .node "program" true 0 43 "" [
      .node "global_declaration" true 6 16 "" [.node "variable_name" true 13 15 "" []],
      .node "expression_statement" true 17 34 "" [feedbackAssignment],
      .node "echo_statement" true 35 43 "" [.node "variable_name" true 40 42 "" []]]⟩

/-- The last variable of `feedbackFile` is defined by an assignment that reads it, and that
has a part with its own key. The tracer that has traced the assignment traces it, too. -/
theorem trace_ends_without_calls_feedback :
    let request : Request :=
      ⟨.fresh [] false, .expression (feedbackFile.withTree feedbackAssignment)⟩
    let last := feedbackFile.withTree (.node "variable_name" true 40 42 "" [])
    ∃ ends annotator, [feedbackFile].mapM annotateProgram Annotator.start = .ok ends annotator ∧
      let program := Program.ofAnnotated annotator ∅ [feedbackFile]
      let desk := Desk.following program [request]
      let memory := desk.memory.withTracer (desk.tracerAt (.earlier 0))
      (desk.tracerAt (.earlier 0)).followsCalls = false ∧
        ∃ deps after, deps.keys = ["$_GET"] ∧ forall depth, depthBound [feedbackFile] <= depth ->
          traceWithin depth last program memory = .ok deps after := by
  intro request last
  have ran : Outcome.passes (fun _ annotator =>
      let program := Program.ofAnnotated annotator ∅ [feedbackFile]
      let desk := Desk.following program [request]
      let tracer := desk.tracerAt (.earlier 0)
      let ended := traceWithin program.depth last program (desk.memory.withTracer tracer)
      decide (tracer.followsCalls = false ∧
        (Ending.answer ended).toOption.map Table.keys = some ["$_GET"]))
      ([feedbackFile].mapM annotateProgram Annotator.start) = true := by
    decide +kernel
  obtain ⟨ends, annotator, outcome, shown⟩ := Outcome.exists_of_passes ran
  obtain ⟨unfollowed, keys⟩ := of_decide_eq_true shown
  refine ⟨ends, annotator, outcome, ?_⟩
  intro program desk memory
  have statement : feedbackFile.withTree (.node "echo_statement" true 35 43 ""
      [.node "variable_name" true 40 42 "" []]) ∈ feedbackFile.children := List.mem_of_getLast? rfl
  have inFile : forall stranger, stranger ∈ [last] -> stranger ∈ nodesOf [feedbackFile] := by
    intro stranger listed
    cases List.mem_singleton.1 listed
    exact mem_nodesOf_of_mem_children (mem_nodesOf_of_mem_children
      (mem_nodesOf_of_root (List.mem_cons_self ..)) statement) (List.mem_cons_self ..)
  obtain ⟨ended, shape, _, inFiles⟩ :=
    trace_ends_without_calls outcome ∅ program.depth [request] (.earlier 0) last unfollowed
  have stable := inFiles inFile
  -- the run only shows the keys; that they are there at every depth is the theorem
  change (Ending.answer (traceWithin program.depth last program memory)).toOption.map
    Table.keys = some ["$_GET"] at keys
  rw [show traceWithin program.depth last program memory = ended from
    stable program.depth (Nat.le_refl _)] at keys
  rcases shape with ⟨deps, after, rfl⟩ | ⟨place, after, rfl⟩
  · exact ⟨unfollowed, deps, after, Option.some.inj keys, stable⟩
  · cases keys

end PhpTaint.Flow
