import PhpTaint.Proofs.Flow.Growth
import PhpTaint.Proofs.Flow.Returns
import PhpTaint.Proofs.Flow.Tables

/-!
# Regimes of tracing

A regime says which expressions are traced, which definitions are followed, whose
summaries are built and kept, which records a tracer may hold, which dependencies
a trace may answer, and with which faults it may end. A regime is lawful for a
program if whatever a rule of tracing is led to from there, reads there or answers
there is again of the regime. What is of a lawful regime is kept by every trace,
however deeply it is nested and however it ends.
-/

namespace PhpTaint.Flow

open Scopes Syntax Rules

/-- What tracing is led to, what it learns and what it answers. -/
structure Regime where
  /-- The expressions that are traced. -/
  admits : Node -> Prop
  /-- The definitions that are followed for a name. -/
  follows : String -> Node -> Prop
  /-- The declarations whose summaries are built. -/
  enters : Node -> Prop
  /-- The declarations whose summaries are kept. -/
  declares : Node -> Prop
  /-- The records that are kept for a name. -/
  records : String -> LeafRecord -> Prop
  /-- The dependencies that are answered. -/
  yields : Deps -> Prop
  /-- The faults that end a trace. -/
  fails : Fault -> Prop

/-- Dependencies that can be put together in all the ways of tracing. -/
structure Composable (rules : RuleSet) (yields : Deps -> Prop) : Prop where
  merge : forall parts, (forall deps, deps ∈ parts -> yields deps) ->
    yields (Dependencies.merge parts)
  join : forall node results, (forall deps, deps ∈ results -> yields deps) ->
    yields (joinParts rules node results)
  unknown : forall name definition, yields (unknownLeaf name definition)
  parameter : forall name, yields (parameterLeaf name)
  input : forall name, rules.isInputVariable name = true ->
    yields (Dependencies.single name (Record.leaf name .tainted none))
  substitute : forall summary arguments, Each yields summary.returns -> Each yields arguments ->
    yields (substitute summary arguments)

/-- What is of a regime leads to what is of the regime. -/
structure Regime.Lawful (regime : Regime) (program : Program) : Prop where
  part : forall node part, regime.admits node -> part ∈ valueParts program.rules node ->
    regime.admits part
  argument : forall argument value, regime.admits argument ->
    argument.argumentValue = some value -> regime.admits value
  definingPart : forall name node part, regime.follows name node ->
    definingPart? node = some part -> regime.admits part
  former : forall name node left start, regime.follows name node -> keptTarget? node = some left ->
    formerVariable? left = some start -> regime.admits start
  returned : forall declaration value, regime.enters declaration ->
    value ∈ returnedValues declaration -> regime.admits value
  default : forall declaration parameter value, regime.declares declaration ->
    parameter ∈ declaration.parameters -> parameter.child? "default_value" = some value ->
      regime.admits value
  kept : forall declaration, regime.enters declaration -> regime.declares declaration
  callee : forall node scope name declaration, regime.admits node ->
    program.registry.scopeOf program.globalScope node = .ok scope ->
    program.registry.resolveFunction scope name = .ok declaration -> regime.enters declaration
  undeclared : forall node scope name fault, regime.admits node ->
    program.registry.scopeOf program.globalScope node = .ok scope ->
    program.registry.resolveFunction scope name = .error fault ->
      fault.isUnbound = true ∨ regime.fails fault
  unannotated : forall node fault, regime.admits node ->
    node.form = .variableName ∨ node.form = .call ->
    program.registry.scopeOf program.globalScope node = .error fault -> regime.fails fault
  tooDeep : regime.fails .tooDeep
  bound : forall node scope name binding, regime.admits node ->
    program.registry.scopeOf program.globalScope node = .ok scope ->
    program.registry.visible scope name = some binding ->
      regime.records name (Record.leaf name .unassigned (some binding))
  unbound : forall name, regime.records name (Record.leaf name .unknown none)
  parameter : forall name, regime.records name (Record.unassigned name)
  input : forall name record, program.rules.isInputVariable name = true ->
    regime.records name record -> regime.records name { record with level := .tainted } ∧
      regime.yields (Dependencies.single name { record with level := .tainted })
  leaf : forall name record parameters deps, regime.records name record ->
    recordOrigin program.registry parameters record = .leaf deps -> regime.yields deps
  definition : forall name record parameters node, regime.records name record ->
    recordOrigin program.registry parameters record = .definition node ->
      regime.follows record.name node
  composable : Composable program.rules regime.yields

namespace Composable

variable {rules : RuleSet} {yields : Deps -> Prop}

/-- No leaves are always allowed. -/
theorem empty (composable : Composable rules yields) : yields ∅ := composable.merge [] nofun

/-- Two parts that are allowed may be merged. -/
theorem mergeTwo (composable : Composable rules yields) (left right : Deps) (first : yields left)
    (second : yields right) : yields (Dependencies.mergeTwo left right) := by
  refine composable.merge _ fun deps listed => ?_
  rcases List.mem_cons.1 listed with rfl | later
  · exact first
  · cases List.mem_singleton.1 later
    exact second

end Composable

/-! ## What is kept -/

section Keeping

variable {regime : Regime} {program : Program} {memory : Memory}

/-- What a tracer has learned is of the regime. -/
structure Regime.Informs (regime : Regime) (tracer : Tracer) : Prop where
  records : forall name record, tracer.records.find? name = some record ->
    regime.records name record
  traced : Each regime.yields tracer.traced

/-- A summary is of the regime. -/
structure Regime.Sums (regime : Regime) (summary : Summary) : Prop where
  declares : regime.declares summary.declaration
  returns : Each regime.yields summary.returns
  informs : regime.Informs summary.tracer

/-- What a memory holds is of the regime. -/
structure Regime.Holds (regime : Regime) (memory : Memory) : Prop where
  informs : regime.Informs memory.tracer
  sums : forall key summary, memory.summaries.find? key = some summary -> regime.Sums summary

namespace Regime

theorem Informs.fresh (regime : Regime) (parameters : List String) (followsCalls : Bool) :
    regime.Informs (Tracer.fresh parameters followsCalls) := by
  refine ⟨?_, Each.empty⟩
  rintro name record ⟨⟩

namespace Holds

variable (holds : regime.Holds memory)

include holds

/-- What is kept is a matter of the records, the definitions that were followed and
the summaries. -/
theorem of_eq {after : Memory} (records : after.tracer.records = memory.tracer.records)
    (traced : after.tracer.traced = memory.tracer.traced)
    (summaries : after.summaries = memory.summaries) : regime.Holds after := by
  refine ⟨⟨?_, ?_⟩, ?_⟩
  · rw [records]
    exact holds.informs.records
  · rw [traced]
    exact holds.informs.traced
  · rw [summaries]
    exact holds.sums

/-- A record that the regime allows may be kept. -/
theorem keepRecord {name : String} {record : LeafRecord} (admitted : regime.records name record) :
    regime.Holds (memory.keepRecord name record) := by
  refine ⟨⟨?_, holds.informs.traced⟩, holds.sums⟩
  intro other found listed
  change (memory.tracer.records.insert name record).find? other = some found at listed
  rw [Table.find?_insert] at listed
  split at listed
  · rename_i same
    subst same
    cases listed
    exact admitted
  · exact holds.informs.records other found listed

/-- Dependencies that the regime allows may be kept. -/
theorem keepTraced (key : Key) {deps : Deps} (yielded : regime.yields deps) :
    regime.Holds (memory.keepTraced key deps) :=
  ⟨⟨holds.informs.records, holds.informs.traced.insert key yielded⟩, holds.sums⟩

/-- A summary that the regime allows may be kept. -/
theorem keepSummary (declaration : Node) {summary : Summary} (sums : regime.Sums summary) :
    regime.Holds (memory.keepSummary declaration summary) := by
  refine ⟨holds.informs, ?_⟩
  intro key other listed
  change (memory.summaries.insert declaration.key summary).find? key = some other at listed
  rw [Table.find?_insert] at listed
  split at listed
  · cases listed
    exact sums
  · exact holds.sums key other listed

/-- A tracer that the regime allows may take over. -/
theorem withTracer {tracer : Tracer} (informs : regime.Informs tracer) :
    regime.Holds (memory.withTracer tracer) :=
  ⟨informs, holds.sums⟩

/-- A note of the unannotated breaks no regime. -/
theorem noted (rules : RuleSet) (node : Node) : regime.Holds (memory.noted rules node) := by
  unfold Memory.noted
  split
  · exact holds.of_eq rfl rfl rfl
  · exact holds

end Holds

/-- A new memory holds nothing that a regime could forbid. -/
theorem Holds.start (regime : Regime) : regime.Holds Memory.start := by
  refine ⟨.fresh regime [] false, ?_⟩
  rintro key summary ⟨⟩

end Regime

/-- A step keeps what is of the regime, and what every trace leaves as it was; its
values are of some kind and its faults are of the regime. -/
abbrev Regime.Obeys {α : Type} (regime : Regime) (program : Program) (memory : Memory)
    (step : Tracing α) (good : α -> Prop) : Prop :=
  Keeps regime.Holds regime.fails program memory step good

end Keeping

end PhpTaint.Flow
