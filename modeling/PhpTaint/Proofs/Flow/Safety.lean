import PhpTaint.Proofs.Annotation.Refinement
import PhpTaint.Proofs.Flow.Following
import PhpTaint.Proofs.Flow.Steps

/-!
# What tracing leaves in order

However a trace ends, it leaves the tracer's settings, the definitions that are
being followed and the summaries that are being built as it found them, and what
it has learned points to nodes of the analysed files. `Safe` says so of a step,
together with a property of its faults. A rule for expressions and one for
definitions reduce the safety of a trace to that of the traces it starts.
-/

namespace PhpTaint.Flow

open Scopes Syntax Rules

/-- The scopes of a program are in order, and no node stands anywhere else. -/
structure Grounded (nodes : List Node) (program : Program) : Prop where
  sound : Sound nodes program.globalScope program.registry
  places : forall node scope, program.registry.scopeOf program.globalScope node = .ok scope ->
    scope < program.registry.scopes.size

/-- The fault of a variable or a call that was not annotated. -/
def Unannotated (nodes : List Node) (program : Program) (fault : Fault) : Prop :=
  ∃ node, node ∈ nodes ∧ (node.form = .variableName ∨ node.form = .call) ∧
    program.registry.scopeOf program.globalScope node = .error fault

/-- The scopes of annotated files are in order. -/
theorem Grounded.of_annotated {roots : List Node} {ends : List ScopeId}
    {annotator : Annotation.Annotator}
    (annotated : roots.mapM Annotation.annotateProgram Annotation.Annotator.start =
      .ok ends annotator) (rules : RuleSet) :
    Grounded (nodesOf roots) (Program.ofAnnotated annotator rules roots) := by
  have inStep := Annotation.annotated_inStep annotated
  refine ⟨inStep.sound, ?_⟩
  intro node scope located
  have shown := inStep.scopeOf node
  change annotator.registry.scopeOf annotator.globalScope node = .ok scope at located
  split at shown
  · obtain ⟨other, otherLocated, shows⟩ := shown
    rw [located] at otherLocated
    cases otherLocated
    exact shows.1
  · rw [located] at shown
    cases shown

/-- The fault of a node that was not annotated says so. -/
theorem Grounded.unannotated {nodes : List Node} {program : Program}
    (grounded : Grounded nodes program) {fault : Fault}
    (unannotated : Unannotated nodes program fault) :
    ∃ node, node ∈ nodes ∧ fault = .unannotated node.describe := by
  obtain ⟨node, member, _, located⟩ := unannotated
  refine ⟨node, member, ?_⟩
  unfold Registry.scopeOf at located
  rw [grounded.sound.isGlobal_root, if_pos rfl] at located
  split at located
  · cases located
  · exact (Except.error.inj located).symm

/-- A record of a name, with a binding that the name may have. -/
structure SuitsRecord (nodes : List Node) (name : String) (record : LeafRecord) : Prop where
  named : record.name = name
  bound : forall binding, record.definition = some binding -> binding.Suits nodes name

/-- What a memory has learned comes from the given nodes. -/
structure Coherent (nodes : List Node) (memory : Memory) : Prop where
  records : forall name record, memory.tracer.records.find? name = some record ->
    SuitsRecord nodes name record
  summaries : forall key summary, memory.summaries.find? key = some summary ->
    summary.declaration ∈ nodes ∧ summary.declaration.key = key

/-- What a trace leaves as it was. -/
structure Kept (before after : Memory) : Prop where
  parameters : after.tracer.parameters = before.tracer.parameters
  followsCalls : after.tracer.followsCalls = before.tracer.followsCalls
  active : after.tracer.active = before.tracer.active
  inProgress : after.inProgress = before.inProgress

/-- A step leaves everything in order, also when it ends with a fault; its values
and its faults are of the given kinds. -/
def SafelyGives {α : Type} (nodes : List Node) (faults : Fault -> Prop) (program : Program)
    (memory : Memory) (step : Tracing α) (good : α -> Prop) : Prop :=
  Concludes program memory step (fun value after => good value ∧ Coherent nodes after ∧
    Kept memory after) (fun fault after => faults fault ∧ Coherent nodes after ∧ Kept memory after)

/-- A step leaves everything in order, and its faults are of the given kind. -/
abbrev Safe {α : Type} (nodes : List Node) (faults : Fault -> Prop) (program : Program)
    (memory : Memory) (step : Tracing α) : Prop :=
  SafelyGives nodes faults program memory step fun _ => True

variable {α β : Type} {nodes : List Node} {faults : Fault -> Prop} {program : Program}
  {memory : Memory}

theorem Kept.refl (memory : Memory) : Kept memory memory := ⟨rfl, rfl, rfl, rfl⟩

/-- What is kept in two stretches is kept in both together. -/
theorem Kept.trans {before middle after : Memory} (first : Kept before middle)
    (second : Kept middle after) : Kept before after :=
  ⟨second.parameters.trans first.parameters, second.followsCalls.trans first.followsCalls,
    second.active.trans first.active, second.inProgress.trans first.inProgress⟩

/-- A definition that was not being followed is unmarked again. -/
theorem Kept.release {after : Memory} {key : Key} (kept : Kept (memory.activate key) after)
    (inactive : key ∉ memory.tracer.active) : Kept memory (after.release key) :=
  ⟨kept.parameters, kept.followsCalls, Memory.active_release kept.active inactive, kept.inProgress⟩

/-- A declaration whose summary was not being built is unmarked again. -/
theorem Kept.leave {after : Memory} {declaration : Node}
    (kept : Kept (memory.enter declaration) after) (idle : declaration.key ∉ memory.inProgress) :
    Kept memory (after.leave memory declaration) :=
  ⟨rfl, rfl, rfl, Memory.inProgress_leave kept.inProgress idle⟩

/-- A note of the unannotated leaves nothing else behind. -/
theorem Kept.noted (memory : Memory) (rules : RuleSet) (node : Node) :
    Kept memory (memory.noted rules node) := by
  unfold Memory.noted
  split <;> exact ⟨rfl, rfl, rfl, rfl⟩

/-- A step keeps an invariant of the memory, and what every trace leaves as it was,
however it ends; its values and its faults are of the given kinds. -/
def Keeps {α : Type} (invariant : Memory -> Prop) (faults : Fault -> Prop) (program : Program)
    (memory : Memory) (step : Tracing α) (good : α -> Prop) : Prop :=
  Concludes program memory step (fun value after => good value ∧ invariant after ∧
    Kept memory after) fun fault after => faults fault ∧ invariant after ∧ Kept memory after

namespace Keeps

variable {invariant : Memory -> Prop} {step : Tracing α} {good better : α -> Prop}

/-- A value keeps an invariant that holds. -/
theorem of_pure (holds : invariant memory) {value : α} (passes : good value) :
    Keeps invariant faults program memory (pure value : Tracing α) good :=
  ⟨passes, holds, Kept.refl memory⟩

/-- Less may be said of the values. -/
theorem mono (keeps : Keeps invariant faults program memory step good)
    (weaker : forall value, good value -> better value) :
    Keeps invariant faults program memory step better :=
  Concludes.mono keeps (fun value _ passes => ⟨weaker value passes.1, passes.2⟩)
    fun _ _ failed => failed

/-- A step from a later memory keeps what an earlier one had that has been kept
since. -/
theorem later {after : Memory} (kept : Kept memory after)
    (keeps : Keeps invariant faults program after step good) :
    Concludes program after step
      (fun value final => good value ∧ invariant final ∧ Kept memory final)
      (fun fault final => faults fault ∧ invariant final ∧ Kept memory final) :=
  Concludes.mono keeps (fun _ _ ends => ⟨ends.1, ends.2.1, kept.trans ends.2.2⟩)
    fun _ _ ends => ⟨ends.1, ends.2.1, kept.trans ends.2.2⟩

/-- A step keeps an invariant with the step that follows on each of its values. -/
theorem bind {first : Tracing β} {next : β -> Tracing α} {passed : β -> Prop}
    (keeps : Keeps invariant faults program memory first passed)
    (continues : forall value after, passed value -> invariant after -> Kept memory after ->
      Keeps invariant faults program after (next value) good) :
    Keeps invariant faults program memory (first >>= next) good := by
  rw [Keeps, Concludes.bind_iff]
  refine Concludes.mono keeps ?_ fun _ _ ends => ends
  rintro value after ⟨passes, holds, kept⟩
  exact later kept (continues value after passes holds kept)

/-- A list of steps keeps an invariant if each of them does. -/
theorem mapM {step : β -> Tracing α} {items : List β} (holds : invariant memory)
    (steps : forall item, item ∈ items -> forall after, invariant after -> Kept memory after ->
      Keeps invariant faults program after (step item) good) :
    Keeps invariant faults program memory (items.mapM step) fun results =>
      forall value, value ∈ results -> good value := by
  refine Concludes.mapM (fun _ results after => (forall value, value ∈ results -> good value) ∧
    invariant after ∧ Kept memory after) ⟨nofun, holds, Kept.refl memory⟩ ?_
  rintro done item rest itemsEq results after ⟨each, holds, kept⟩
  have member : item ∈ items := by simp [itemsEq]
  refine Concludes.mono (later kept (steps item member after holds kept)) ?_ fun _ _ ends => ends
  rintro value final ⟨passes, ends⟩
  refine ⟨?_, ends⟩
  intro other listed
  rcases List.mem_append.1 listed with earlier | last
  · exact each other earlier
  · cases List.mem_singleton.1 last
    exact passes

end Keeps

/-- Coherence is a matter of the records and the summaries. -/
theorem Coherent.of_eq {before after : Memory} (coherent : Coherent nodes before)
    (records : after.tracer.records = before.tracer.records)
    (summaries : after.summaries = before.summaries) : Coherent nodes after := by
  refine ⟨?_, ?_⟩
  · rw [records]
    exact coherent.records
  · rw [summaries]
    exact coherent.summaries

/-- A record that suits its name may be kept. -/
theorem Coherent.keepRecord (coherent : Coherent nodes memory) {name : String}
    {record : LeafRecord} (suits : SuitsRecord nodes name record) :
    Coherent nodes (memory.keepRecord name record) := by
  refine ⟨?_, coherent.summaries⟩
  intro other found listed
  have inserted : (memory.tracer.records.insert name record).find? other = some found := listed
  rw [Table.find?_insert] at inserted
  split at inserted
  · rename_i same
    subst same
    cases inserted
    exact suits
  · exact coherent.records other found inserted

/-- A summary may be kept if its declaration is one of the nodes. -/
theorem Coherent.keepSummary (coherent : Coherent nodes memory) {declaration : Node}
    {summary : Summary} (member : summary.declaration ∈ nodes)
    (same : summary.declaration.key = declaration.key) :
    Coherent nodes (memory.keepSummary declaration summary) := by
  refine ⟨coherent.records, ?_⟩
  intro key other listed
  have inserted : (memory.summaries.insert declaration.key summary).find? key = some other := listed
  rw [Table.find?_insert] at inserted
  split at inserted
  · rename_i at_key
    cases inserted
    exact ⟨member, same.trans at_key.symm⟩
  · exact coherent.summaries key other inserted

/-- A new memory has learned nothing. -/
theorem Coherent.start (nodes : List Node) : Coherent nodes Memory.start := by
  refine ⟨?_, ?_⟩
  · intro name record listed
    cases listed
  · intro key summary listed
    cases listed

/-- A fresh tracer knows nothing. -/
theorem Coherent.fresh (coherent : Coherent nodes memory) (parameters : List String)
    (followsCalls : Bool) :
    Coherent nodes (memory.withTracer (Tracer.fresh parameters followsCalls)) := by
  refine ⟨?_, coherent.summaries⟩
  intro name record listed
  cases listed

/-- The tracer of one memory with the summaries of another. -/
theorem Coherent.withTracer {other : Memory} (coherent : Coherent nodes memory)
    (learned : Coherent nodes other) : Coherent nodes (memory.withTracer other.tracer) :=
  ⟨learned.records, coherent.summaries⟩

/-- A note on a construct leaves everything in order. -/
theorem Coherent.noted (coherent : Coherent nodes memory) (rules : RuleSet) (node : Node) :
    Coherent nodes (memory.noted rules node) ∧ Kept memory (memory.noted rules node) := by
  refine ⟨?_, .noted memory rules node⟩
  unfold Memory.noted
  split
  · exact coherent.of_eq rfl rfl
  · exact coherent

namespace SafelyGives

variable {step : Tracing α} {good better : α -> Prop}

theorem of_pure (coherent : Coherent nodes memory) {value : α} (holds : good value) :
    SafelyGives nodes faults program memory (pure value : Tracing α) good :=
  Keeps.of_pure coherent holds

/-- A step that is safe from a later memory is safe from an earlier one that has
been kept since. -/
theorem later {after : Memory} (kept : Kept memory after)
    (safe : SafelyGives nodes faults program after step good) :
    Concludes program after step
      (fun value final => good value ∧ Coherent nodes final ∧ Kept memory final)
      (fun fault final => faults fault ∧ Coherent nodes final ∧ Kept memory final) :=
  Keeps.later kept safe

/-- A safe step may be followed by steps that are safe on its values. -/
theorem bind {first : Tracing β} {next : β -> Tracing α} {passed : β -> Prop}
    (safe : SafelyGives nodes faults program memory first passed)
    (continues : forall value after, passed value -> Coherent nodes after -> Kept memory after ->
      SafelyGives nodes faults program after (next value) good) :
    SafelyGives nodes faults program memory (first >>= next) good :=
  Keeps.bind safe continues

/-- A list of safe steps is safe. -/
theorem mapM {step : β -> Tracing α} {items : List β} (coherent : Coherent nodes memory)
    (steps : forall item, item ∈ items -> forall after, Coherent nodes after ->
      Kept memory after -> Safe nodes faults program after (step item)) :
    Safe nodes faults program memory (items.mapM step) :=
  Keeps.mono (Keeps.mapM coherent steps) fun _ _ => trivial

end SafelyGives

end PhpTaint.Flow
