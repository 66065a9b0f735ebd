import PhpTaint.Proofs.Annotation.Orderly
import PhpTaint.Proofs.Annotation.Refinement

/-!
# Annotation keeps the stack in order

By induction on the height every visit keeps the discipline of the stack, so a
run that checks each visit on its way is the run that does not. What can stop a
file is a name only: no scope is left that was not entered, and every scope has a
namespace and a global scope around it. The next file starts from there.
-/

namespace PhpTaint.Annotation

open Scopes Syntax Outcome

variable {owner : ScopeId} {state : Annotator}

/-- A visit that keeps the discipline passes the check. -/
theorem keepsDiscipline_of_moved {node : Node} {after : Annotator}
    (standing : Standing owner state) (moved : Moved owner state after)
    (leaves : leavesScope node.construct = true -> after.stack = state.stack) :
    keepsDiscipline node state after = true := by
  obtain ⟨old, new, outer, oldStack, newStack, forked⟩ := moved.stack
  have bound : old < after.registry.scopes.size :=
    moved.grows.kept.lt_size (standing.opened old (oldStack ▸ List.mem_cons_self ..))
  have unchanged : (!leavesScope node.construct || new == old) = true := by
    cases left : leavesScope node.construct with
    | false => rfl
    | true =>
        have same := leaves left
        rw [oldStack, newStack] at same
        simp [(List.cons.inj same).1]
  simp only [keepsDiscipline, oldStack, newStack, forkedFrom_chain bound forked, unchanged,
    beq_self_eq_true, Bool.and_self]

/-- By induction on the height: no visit on the way fails its check, so the
watched visit is the visit. -/
theorem visitWatched_careful (owner : ScopeId) (height : Nat) :
    Careful owner (visitWatched height) (visit height) := by
  induction height with
  | zero =>
      intro node state standing
      exact Orderly.pure ((Returned.refl standing).moved standing)
  | succ height inductionHypothesis =>
      intro node state standing
      have rule := visitNode_orderly inductionHypothesis standing node
      refine ⟨?_, rule.ends.mono fun _ _ holds => holds.1⟩
      have same := rule.same
      have ends := rule.ends
      show EStateM.bind (visitNode (visitWatched height) node) _ state
        = visitNode (visit height) node state
      simp only [EStateM.bind, same]
      cases outcome : visitNode (visit height) node state with
      | error fault after => rfl
      | ok value after =>
          rw [outcome] at ends
          show (if keepsDiscipline node state after then pure () else throw .noCurrentScope
            : Annotating Unit) after = .ok value after
          simp only [keepsDiscipline_of_moved standing ends.1 ends.2, if_true]
          rfl

/-- Annotate a file with a given visit. -/
def annotateWith (visit : Nat -> Node -> Annotating Unit) (root : Node) : Annotating ScopeId := do
  modify fun state => { state with stack := [state.globalScope] }
  visit root.tree.height root
  let state ← get
  match state.stack with
  | [scope] =>
      endProgram scope
      return scope
  | scopes => throw (.unbalancedScopes (scopes.reverse.map state.registry.describe))

/-- A file is annotated alike with and without a check of every visit, and only a
name can stop it. -/
theorem annotateWith_orderly (owned : state.globalScope = owner)
    (rooted : Rooted owner state.registry) (root : Node) :
    Orderly owner (annotateWith visitWatched root) (annotateProgram root) state fun _ after =>
      after.globalScope = owner ∧ Rooted owner after.registry := by
  have begun : Standing owner { state with stack := [state.globalScope] } := by
    refine ⟨owned, rooted, List.cons_ne_nil _ _, ?_⟩
    intro scope member
    obtain rfl := List.mem_singleton.1 member
    exact owned ▸ rooted.root_lt
  refine Orderly.bind_modify ?_
  refine (visitWatched_careful owner root.tree.height root _ begun).bind ?_
  intro _ visited moved
  obtain ⟨_, scope, _, startStack, stack, -⟩ := moved.stack
  obtain ⟨-, rfl⟩ := List.cons.inj startStack
  refine Orderly.bind_get ?_
  rw [stack]
  refine (endProgram_orderly (Returned.refl (moved.standing begun)) scope).bind ?_
  intro _ after returned
  exact Orderly.pure ⟨returned.owned, returned.grows.rooted⟩

/-- Annotate files one after the other. After a file that could not be annotated
to its end, the next one starts from what was left. -/
def annotateEach (annotate : Node -> Annotating ScopeId) :
    List Node -> Annotator -> List (Except Fault ScopeId) × Annotator
  | [], state => ([], state)
  | root :: rest, state =>
      match annotate root state with
      | .ok scope after =>
          let (outcomes, last) := annotateEach annotate rest after
          (.ok scope :: outcomes, last)
      | .error fault after =>
          let (outcomes, last) := annotateEach annotate rest after
          (.error fault :: outcomes, last)

/-- One file after the other: what holds after each file holds after all. -/
theorem annotateEach_orderly (owned : state.globalScope = owner)
    (rooted : Rooted owner state.registry) (roots : List Node) :
    annotateEach (annotateWith visitWatched) roots state =
        annotateEach annotateProgram roots state ∧
      (forall fault, .error fault ∈ (annotateEach annotateProgram roots state).1 ->
        fault.isMisnamed = true) ∧
      (annotateEach annotateProgram roots state).2.globalScope = owner ∧
      Rooted owner (annotateEach annotateProgram roots state).2.registry := by
  induction roots generalizing state with
  | nil => exact ⟨rfl, nofun, owned, rooted⟩
  | cons root rest inductionHypothesis =>
      have first := annotateWith_orderly owned rooted root
      have ends := first.ends
      unfold annotateEach
      rw [first.same]
      cases outcome : annotateProgram root state with
      | ok scope after =>
          rw [outcome] at ends
          obtain ⟨same, named, lastOwned, lastRooted⟩ := inductionHypothesis ends.1 ends.2
          refine ⟨by simp only [same], ?_, lastOwned, lastRooted⟩
          intro fault member
          rcases List.mem_cons.1 member with absurdity | later
          · cases absurdity
          · exact named fault later
      | error stopped after =>
          rw [outcome] at ends
          obtain ⟨same, named, lastOwned, lastRooted⟩ := inductionHypothesis ends.2.1 ends.2.2
          refine ⟨by simp only [same], ?_, lastOwned, lastRooted⟩
          intro fault member
          rcases List.mem_cons.1 member with here | later
          · cases here
            exact ends.1
          · exact named fault later

/-- Whatever files are annotated, every visit on the way keeps the stack below
its top and replaces the top by forks only, and a visit of a construct with a
scope of its own leaves the top as well: checking all this changes nothing. So
only the writing of a name can stop a file, never the scopes, and in the end
every scope has a global scope and a namespace around it. -/
theorem annotation_keeps_discipline (roots : List Node) :
    annotateEach (annotateWith visitWatched) roots Annotator.start =
        annotateEach annotateProgram roots Annotator.start ∧
      let (outcomes, last) := annotateEach annotateProgram roots Annotator.start
      (forall fault, .error fault ∈ outcomes ->
        fault.isStructural = false ∧ fault.isMisnamed = true) ∧
      forall scope, scope < last.registry.scopes.size ->
        last.registry.globalOf scope = .ok last.globalScope ∧
          ∃ space, last.registry.namespaceOf scope = .ok space := by
  have start := start_inStep []
  obtain ⟨same, named, owned, rooted⟩ :=
    annotateEach_orderly start.owned start.sound.rooted roots
  refine ⟨same, ?_, ?_⟩
  · intro fault member
    have misnamed := named fault member
    refine ⟨?_, misnamed⟩
    cases fault <;> first | rfl | cases misnamed
  · intro scope bound
    obtain ⟨space, spaceEq, -⟩ := rooted.namespaceOf_eq bound
    rw [owned]
    exact ⟨rooted.globalOf_eq bound, space, spaceEq⟩

/-- The file `<?php namespace \A; $x = 1;`, with a name that no namespace can
have. -/
def absoluteFile : Node :=
  ⟨⟨"absolute.php", "<?php namespace \\A; $x = 1;".toUTF8⟩,
    .node "program" true 0 27 "" [
      .node "namespace_definition" true 6 19 "" [.node "namespace_name" true 16 18 "name" []],
      .node "expression_statement" true 20 27 "" [
        .node "assignment_expression" true 20 26 "" [
          .node "variable_name" true 20 22 "left" [], .node "integer" true 25 26 "right" []]]]⟩

/-- The annotation of `absoluteFile` is stopped by its name, and the file after it
is annotated all the same. -/
theorem annotation_keeps_discipline_absolute :
    ∃ fault scope last,
      annotateEach annotateProgram [absoluteFile, unsetFile] Annotator.start =
        ([.error fault, .ok scope], last) ∧
      fault.isStructural = false ∧ fault.isMisnamed = true := by
  have stopped : ∃ fault scope last,
      annotateEach annotateProgram [absoluteFile, unsetFile] Annotator.start =
        ([.error fault, .ok scope], last) := by
    have shape : (annotateEach annotateProgram [absoluteFile, unsetFile]
        Annotator.start).1.map Except.isOk = [false, true] := by decide +kernel
    rcases outcome : annotateEach annotateProgram [absoluteFile, unsetFile] Annotator.start with
      ⟨outcomes, last⟩
    rw [outcome] at shape
    rcases outcomes with _ | ⟨_ | scope, _ | ⟨_ | scope, _ | ⟨_, _⟩⟩⟩ <;> try cases shape
    exact ⟨_, _, _, rfl⟩
  obtain ⟨fault, scope, last, outcome⟩ := stopped
  have law := annotation_keeps_discipline [absoluteFile, unsetFile]
  rw [outcome] at law
  exact ⟨fault, scope, last, outcome, law.2.1 fault (List.mem_cons_self ..)⟩

end PhpTaint.Annotation
