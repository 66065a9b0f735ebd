import PhpTaint.Proofs.Flow.Depth
import PhpTaint.Proofs.Flow.Elementary

/-!
# What a function returns

A summary keeps, for each line, what the values that are returned on that line
depend on. `buildSummary_givesLines` says of a function with elementary returns
that its summary is built, and that every line of it gathers the flows to the
values of that line.
-/

namespace PhpTaint.Flow

open Scopes Syntax Rules Forward
open Dependencies (Flows Gathers)

/-- The bound of a program admits every expression of its files. -/
theorem height_le_depthBound {roots : List Node} {node : Node} (member : node ∈ nodesOf roots) :
    node.tree.height <= depthBound roots := by
  have ranked := rank_lt_depthBound (Nat.zero_le _) (Nat.zero_le _) (Nat.zero_le _)
    (Nat.le_succ_of_le (height_le_of_mem_nodesOf member))
  have counted : node.tree.height <= rank roots 0 0 0 node.tree.height := Nat.le_add_left ..
  exact Nat.le_of_lt (Nat.lt_of_le_of_lt counted ranked)

section Returns

variable {program : Program} {memory : Memory} {owner : ScopeId} {declaration : Node}
  {nodes : List Node}

/-- The flows to values that are returned, by line. -/
def valueFlows (rules : RuleSet) (owner : ScopeId) (parameters : List String)
    (values : List (Nat × Node)) (line : Nat) : Flows (Binding Node) := fun name flow =>
  ∃ value, (line, value) ∈ values ∧
    Arrives rules owner (parameterStore parameters) value name flow

/-- Each line of a table gathers its flows, and a line that is missing has none. -/
structure GathersLines (returns : Table Nat Deps) (flowsOn : Nat -> Flows (Binding Node)) :
    Prop where
  gathers : forall line deps, returns.find? line = some deps -> Gathers True deps (flowsOn line)
  complete : forall line name flow, flowsOn line name flow -> ∃ deps, returns.find? line = some deps

theorem GathersLines.addReturn {returns : Table Nat Deps} {flowsOn : Nat -> Flows (Binding Node)}
    (lines : GathersLines returns flowsOn) (line : Nat) {deps : Deps}
    {added : Flows (Binding Node)} (gathers : Gathers True deps added) :
    GathersLines (Summary.addReturn returns line deps) fun other name flow =>
      flowsOn other name flow ∨ other = line ∧ added name flow := by
  -- the line holds all its flows, every other line is as it was
  have written : ∃ merged, Summary.addReturn returns line deps = returns.insert line merged ∧
      Gathers True merged fun name flow => flowsOn line name flow ∨ added name flow := by
    unfold Summary.addReturn
    cases found : returns.find? line with
    | some earlier =>
        refine ⟨_, rfl, ?_⟩
        have both := ((Gathers.empty).absorbAll (lines.gathers line earlier found)).absorbAll gathers
        exact both.congr fun name flow => by simp
    | none =>
        refine ⟨_, rfl, gathers.congr fun name flow => ?_⟩
        have none : ¬ flowsOn line name flow := by
          intro arrives
          obtain ⟨deps, present⟩ := lines.complete line name flow arrives
          rw [found] at present
          cases present
        simp [none]
  obtain ⟨merged, written, holds⟩ := written
  rw [written]
  refine ⟨?_, ?_⟩
  · intro other result found
    rw [Table.find?_insert] at found
    split at found
    · rename_i same
      subst same
      cases found
      exact holds.congr fun name flow => by simp
    · rename_i different
      exact (lines.gathers other result found).congr fun name flow => by simp [different]
  · intro other name flow arrives
    rw [Table.find?_insert]
    split
    · exact ⟨merged, rfl⟩
    · rename_i different
      refine lines.complete other name flow (arrives.resolve_right fun later => ?_)
      exact different later.1

theorem GathersLines.congr {returns : Table Nat Deps} {flowsOn others : Nat -> Flows (Binding Node)}
    (lines : GathersLines returns flowsOn)
    (same : forall line name flow, flowsOn line name flow ↔ others line name flow) :
    GathersLines returns others := by
  refine ⟨fun line deps found => (lines.gathers line deps found).congr (same line), ?_⟩
  intro line name flow arrives
  exact lines.complete line name flow ((same line name flow).2 arrives)

/-- The flows to one more value. -/
theorem valueFlows_append_singleton {rules : RuleSet} {parameters : List String}
    (values : List (Nat × Node)) {line other : Nat} {value : Node} {name : String}
    {flow : LeafRecord} :
    valueFlows rules owner parameters (values ++ [(line, value)]) other name flow ↔
      valueFlows rules owner parameters values other name flow ∨
        other = line ∧ Arrives rules owner (parameterStore parameters) value name flow := by
  simp only [valueFlows, List.mem_append, List.mem_singleton, Prod.mk.injEq]
  constructor
  · rintro ⟨found, earlier | ⟨rfl, rfl⟩, arrives⟩
    · exact Or.inl ⟨found, earlier, arrives⟩
    · exact Or.inr ⟨rfl, arrives⟩
  · rintro (⟨found, earlier, arrives⟩ | ⟨rfl, arrives⟩)
    · exact ⟨found, Or.inl earlier, arrives⟩
    · exact ⟨value, Or.inr ⟨rfl, rfl⟩, arrives⟩

/-- What a function returns is traced line by line. -/
theorem traceReturns_givesLines (grounded : Grounded nodes program) (owner : ScopeId)
    (trusted : forall name, name ∈ declaration.parameterNames ->
      program.rules.isInputVariable name = false) {depth : Nat} {body : Node}
    (found : declaration.child? "body" = some body)
    (elementary : forall line value, (line, value) ∈ returnedOn declaration ->
      Elementary program declaration.parameterNames value ∧ value.tree.height <= depth)
    (tracks : Tracks declaration.parameterNames memory) :
    Concludes program memory (traceReturns (traceWithin depth) declaration body)
      (fun returns _ => GathersLines returns
        (valueFlows program.rules owner declaration.parameterNames (returnedOn declaration)))
      fun _ _ => False := by
  have start : GathersLines ∅ (valueFlows program.rules owner declaration.parameterNames []) := by
    refine ⟨?_, ?_⟩
    · rintro line deps ⟨⟩
    · rintro line name flow ⟨value, listed, _⟩
      cases listed
  refine Concludes.mono (Concludes.traceReturns_of found (fun done returns after =>
    GathersLines returns (valueFlows program.rules owner declaration.parameterNames done) ∧
      Tracks declaration.parameterNames after) ⟨start, tracks⟩ ?_ ?_) (fun _ _ holds => holds.1)
    fun _ _ never => never
  · rintro done line value returns after listed ⟨lines, tracks⟩
    obtain ⟨plain, deep⟩ := elementary line value listed
    refine Concludes.mono (traceWithin_givesFlows grounded owner trusted plain tracks deep) ?_
      fun _ _ never => never
    rintro deps final ⟨gathers, tracks⟩
    exact ⟨(lines.addReturn line gathers).congr fun line name flow =>
      (valueFlows_append_singleton done).symm, tracks⟩
  · rintro done line returns after ⟨lines, tracks⟩
    exact ⟨(lines.addReturn line Gathers.empty).congr fun line name flow => by simp, tracks⟩

/-- The summary of a function is built, and each of its lines gathers the flows to
the values that are returned there. -/
theorem buildSummary_givesLines (grounded : Grounded nodes program) (owner : ScopeId)
    (trusted : forall name, name ∈ declaration.parameterNames ->
      program.rules.isInputVariable name = false) {depth : Nat}
    (elementary : forall line value, (line, value) ∈ returnedOn declaration ->
      Elementary program declaration.parameterNames value ∧ value.tree.height <= depth) :
    Concludes program memory (buildSummary (traceWithin depth) declaration)
      (fun summary _ => summary.declaration = declaration ∧
        GathersLines summary.returns
          (valueFlows program.rules owner declaration.parameterNames (returnedOn declaration)))
      fun _ _ => False := by
  cases found : declaration.child? "body" with
  | none =>
      refine (Concludes.buildSummary_without_body_iff found).2 ⟨rfl, ⟨?_, ?_⟩⟩
      · rintro line deps ⟨⟩
      · rintro line name flow ⟨value, listed, _⟩
        simp [returnedOn, found] at listed
  | some body =>
      refine (Concludes.buildSummary_iff found).2 (Concludes.mono (traceReturns_givesLines grounded
        owner trusted found elementary (Tracks.fresh _ _ _)) ?_ fun _ _ never => never)
      exact fun returns after lines => ⟨rfl, lines⟩

end Returns

end PhpTaint.Flow
