import PhpTaint.Proofs.Flow.Preservation
import PhpTaint.Proofs.Flow.Uniform

/-!
# What a run adds to a memory

However a run ends, the memory that it leaves has grown from the one it found:
summaries and notes are added and none is lost, the same summaries are being
built, and none of them is complete. `Uniform.advances` derives such a relation
for every uniform step from what it says of the visitor and of the summaries
that are entered.
-/

namespace PhpTaint.Flow

open Scopes Syntax Rules

/-- How a run ended, and in which memory. -/
abbrev Ending (α : Type) := EStateM.Result Fault Memory α

/-- The memory in which a run ended. -/
def Ending.memory {α : Type} : Ending α -> Memory
  | .ok _ after => after
  | .error _ after => after

variable {α β : Type} {program : Program} {memory after : Memory} {declaration body : Node}

/-- The run of two steps is that of the second after that of the first. -/
theorem run_bind (first : Tracing β) (next : β -> Tracing α) :
    (first >>= next) program memory =
      match first program memory with
      | .ok value after => next value program after
      | .error fault after => .error fault after := by
  show EStateM.bind (first program) (fun value => next value program) memory = _
  unfold EStateM.bind
  cases first program memory <;> rfl

/-- A step that ends with a value goes on with it. -/
theorem run_bind_ok {first : Tracing β} {value : β} (ended : first program memory = .ok value after)
    (next : β -> Tracing α) : (first >>= next) program memory = next value program after := by
  rw [run_bind, ended]

/-- A fault ends what follows, too. -/
theorem run_bind_error {first : Tracing β} {fault : Fault}
    (ended : first program memory = .error fault after) (next : β -> Tracing α) :
    (first >>= next) program memory = .error fault after := by
  rw [run_bind, ended]

theorem ended_get (program : Program) (memory : Memory) :
    (get : Tracing Memory) program memory = .ok memory memory := rfl

/-- A function without a body has the summary of nothing. -/
theorem buildSummary_without_body {trace : Node -> Tracing Deps}
    (missing : declaration.child? "body" = none) :
    buildSummary trace declaration program memory = .ok (Summary.ofNothing declaration) memory := by
  unfold buildSummary
  rw [missing]
  rfl

/-- Building a summary is tracing the return statements in a memory of their
own. -/
theorem buildSummary_with_body {trace : Node -> Tracing Deps}
    (found : declaration.child? "body" = some body) :
    buildSummary trace declaration program memory =
      match traceReturns trace declaration body program (memory.enter declaration) with
      | .ok returns after => .ok (Summary.ofReturns declaration body returns after.tracer)
          ((after.leave memory declaration).note (summaryNote declaration returns))
      | .error fault after => .error fault (after.leave memory declaration) := by
  unfold buildSummary
  rw [found]
  simp only [run_bind]
  unfold whileInProgress withTracer Memory.enter Memory.withTracer Memory.begin
  simp only
  cases traceReturns trace declaration body program
    { memory with
      tracer := Tracer.fresh declaration.parameterNames true
      inProgress := declaration.key :: memory.inProgress } <;> rfl

/-- A summary that was built before is taken from the memory. -/
theorem summaryOf_found {trace : Node -> Tracing Deps} {summary : Summary}
    (found : memory.summaries.find? declaration.key = some summary) :
    summaryOf trace declaration program memory = .ok summary memory := by
  unfold summaryOf
  rw [run_bind_ok (ended_get program memory), found]
  rfl

/-- A summary that is missing is built and kept, unless its construction fails. -/
theorem summaryOf_missing {trace : Node -> Tracing Deps}
    (missing : memory.summaries.find? declaration.key = none) :
    summaryOf trace declaration program memory =
      match buildSummary trace declaration program memory with
      | .ok summary after => .ok summary (after.keepSummary declaration summary)
      | .error fault after => .error fault after := by
  unfold summaryOf
  rw [run_bind_ok (ended_get program memory), missing]
  dsimp only
  rw [run_bind]
  cases buildSummary trace declaration program memory <;> rfl

/-- A summary that was entered is kept. -/
theorem find?_of_summaryOf {trace : Node -> Tracing Deps} {summary : Summary}
    (ended : summaryOf trace declaration program memory = .ok summary after) :
    after.summaries.find? declaration.key = some summary := by
  cases found : memory.summaries.find? declaration.key with
  | some earlier =>
      rw [summaryOf_found found] at ended
      cases ended
      exact found
  | none =>
      rw [summaryOf_missing found] at ended
      cases run : buildSummary trace declaration program memory with
      | error fault final =>
          rw [run] at ended
          cases ended
      | ok built final =>
          rw [run] at ended
          cases ended
          exact Table.find?_insert_self ..

/-- What holds of the memory in which a step ends, however it ends. -/
theorem Concludes.memory_iff {step : Tracing α} {holds : Memory -> Prop} :
    Concludes program memory step (fun _ after => holds after) (fun _ after => holds after) ↔
      holds (Ending.memory (step program memory)) := by
  unfold Concludes
  cases step program memory <;> exact Iff.rfl

section Enter

variable {text : String} {answer : α} {next : Summary -> Visitor -> Tracing α} {visitor : Visitor}

/-- A summary that is being built is not entered, and a note says so. -/
theorem enterSummary_recursive (listed : declaration.key ∈ memory.inProgress) :
    enterSummary declaration text answer next visitor program memory =
      .ok answer (memory.note text) := by
  unfold enterSummary
  rw [run_bind]
  show (if memory.inProgress.contains declaration.key then _ else _ : Tracing α) program memory = _
  rw [if_pos (List.contains_iff_mem.2 listed)]
  rfl

/-- A summary that is not being built is entered. -/
theorem enterSummary_idle (idle : declaration.key ∉ memory.inProgress) :
    enterSummary declaration text answer next visitor program memory =
      (summaryOf visitor.trace declaration >>= fun summary => next summary visitor) program
        memory := by
  unfold enterSummary
  rw [run_bind]
  show (if memory.inProgress.contains declaration.key then _ else _ : Tracing α) program memory = _
  rw [if_neg fun listed => idle (List.contains_iff_mem.1 listed)]

end Enter

/-- A relation between memories that every step of a run respects. -/
structure Advance (relation : Memory -> Memory -> Prop) : Prop where
  refl : forall memory, relation memory memory
  trans : forall first second third, relation first second -> relation second third ->
    relation first third
  tracer : forall before after first last, relation before after ->
    relation (before.withTracer first) (after.withTracer last)
  remark : forall memory text, relation memory (memory.note text)

/-- However a step ends, it leaves a memory in the given relation to the one it
found. -/
def Advances (relation : Memory -> Memory -> Prop) (program : Program) (step : Tracing α) : Prop :=
  forall memory, relation memory (Ending.memory (step program memory))

/-- Two steps that each advance do so one after the other. -/
theorem Advances.bind {relation : Memory -> Memory -> Prop} (advance : Advance relation)
    {first : Tracing β} {next : β -> Tracing α} (begins : Advances relation program first)
    (continues : forall value, Advances relation program (next value)) :
    Advances relation program (first >>= next) := by
  intro memory
  have advanced := begins memory
  rw [run_bind]
  cases run : first program memory with
  | error fault after =>
      rw [run] at advanced
      exact advanced
  | ok value after =>
      rw [run] at advanced
      exact advance.trans _ _ _ advanced (continues value after)

/-- A mark on a definition does not hold up an advance. -/
theorem Advances.whileActive {relation : Memory -> Memory -> Prop} (advance : Advance relation)
    {step : Tracing α} (key : Key) (advances : Advances relation program step) :
    Advances relation program (Flow.whileActive key step) := by
  intro memory
  have advanced := advances (memory.activate key)
  have released : forall after, relation (memory.activate key) after ->
      relation memory (after.release key) := by
    intro after advanced
    exact advance.tracer (memory.activate key) after memory.tracer _ advanced
  change relation memory (Ending.memory (match step program (memory.activate key) with
    | .ok value final => .ok value (final.release key)
    | .error fault final => .error fault (final.release key)))
  cases run : step program (memory.activate key) with
  | ok value after =>
      rw [run] at advanced
      exact released after advanced
  | error fault after =>
      rw [run] at advanced
      exact released after advanced

/-- A step advances into a summary, or stops in front of it with a note. -/
theorem Advances.enterSummary {relation : Memory -> Memory -> Prop} (advance : Advance relation)
    {text : String} {answer : α} {next : Summary -> Visitor -> Tracing α} {visitor : Visitor}
    (summarizes : forall memory, declaration.key ∉ memory.inProgress ->
      relation memory (Ending.memory (summaryOf visitor.trace declaration program memory)))
    (continues : forall summary, Advances relation program (next summary visitor)) :
    Advances relation program (Flow.enterSummary declaration text answer next visitor) := by
  intro memory
  by_cases listed : declaration.key ∈ memory.inProgress
  · rw [enterSummary_recursive listed]
    exact advance.remark memory text
  · have advanced := summarizes memory listed
    rw [enterSummary_idle listed]
    cases run : summaryOf visitor.trace declaration program memory with
    | error fault after =>
        rw [run] at advanced
        rw [run_bind_error run]
        exact advanced
    | ok summary after =>
        rw [run] at advanced
        rw [run_bind_ok run]
        exact advance.trans _ _ _ advanced (continues summary after)

/-- A relation that the visitor respects, and that entering a summary respects if
tracing its return statements does, is respected by every uniform step. -/
theorem Uniform.advances {relation : Memory -> Memory -> Prop} (advance : Advance relation)
    {declared : Node -> Prop} {visitor : Visitor}
    (traces : forall node, Advances relation program (visitor.trace node))
    (definitions : forall name node, Advances relation program (visitor.definition name node))
    (summaries : forall declaration, declared declaration ->
      (forall body, declaration.child? "body" = some body ->
        Advances relation program (Flow.traceReturns visitor.trace declaration body)) ->
      forall memory, declaration.key ∉ memory.inProgress ->
        relation memory (Ending.memory (summaryOf visitor.trace declaration program memory)))
    {step : Visitor -> Tracing α} (uniform : Uniform program declared step) :
    Advances relation program (step visitor) := by
  induction uniform with
  | pure value => exact advance.refl
  | orFault result => cases result <;> exact advance.refl
  | read _ inductionHypothesis => exact inductionHypothesis
  | look _ _ inductionHypothesis =>
      intro memory
      exact inductionHypothesis memory memory
  | remark text => exact fun memory => advance.remark memory text
  | updateTracer change =>
      intro memory
      exact advance.tracer memory memory memory.tracer _ (advance.refl memory)
  | trace node => exact traces node
  | definition name node => exact definitions name node
  | bind _ _ begins continues => exact Advances.bind advance begins continues
  | whileActive key _ inductionHypothesis => exact Advances.whileActive advance key inductionHypothesis
  | summary declares _ _ _ returns continues =>
      exact Advances.enterSummary advance (summaries _ declares returns) continues

/-- One memory has grown from another. -/
structure Grown (before after : Memory) : Prop where
  inProgress : after.inProgress = before.inProgress
  summaries : forall key summary, before.summaries.find? key = some summary ->
    after.summaries.find? key = some summary
  waiting : forall key, key ∈ before.inProgress -> before.summaries.find? key = none ->
    after.summaries.find? key = none
  journal : before.journal <:+ after.journal

namespace Grown

theorem advance : Advance Grown where
  refl _ := ⟨rfl, fun _ _ found => found, fun _ _ missing => missing, List.suffix_refl _⟩
  trans first second third grown more := by
    refine ⟨more.inProgress.trans grown.inProgress, ?_, ?_, grown.journal.trans more.journal⟩
    · intro key summary found
      exact more.summaries key summary (grown.summaries key summary found)
    · intro key listed missing
      refine more.waiting key ?_ (grown.waiting key listed missing)
      rw [grown.inProgress]
      exact listed
  tracer _ _ _ _ grown := ⟨grown.inProgress, grown.summaries, grown.waiting, grown.journal⟩
  remark _ _ := ⟨rfl, fun _ _ found => found, fun _ _ missing => missing, List.suffix_cons _ _⟩

/-- What has no summary had none before. -/
theorem missing (grown : Grown memory after) {key : Key}
    (absent : after.summaries.find? key = none) : memory.summaries.find? key = none := by
  cases found : memory.summaries.find? key with
  | none => rfl
  | some summary =>
      have kept := grown.summaries key summary found
      rw [absent] at kept
      cases kept

/-- Leaving a declaration undoes entering it. -/
theorem leave (idle : declaration.key ∉ memory.inProgress)
    (grown : Grown (memory.enter declaration) after) :
    Grown memory (after.leave memory declaration) := by
  refine ⟨?_, grown.summaries, ?_, grown.journal⟩
  · exact Memory.inProgress_leave grown.inProgress idle
  · intro key listed missing
    exact grown.waiting key (List.mem_cons_of_mem _ listed) missing

/-- A summary is added for a declaration without one that is not being built. -/
theorem keepSummary (idle : declaration.key ∉ memory.inProgress)
    (missing : memory.summaries.find? declaration.key = none) (summary : Summary) :
    Grown memory (memory.keepSummary declaration summary) := by
  refine ⟨rfl, ?_, ?_, List.suffix_refl _⟩
  · intro key other found
    refine (Table.find?_insert_of_ne _ _ ?_).trans found
    rintro rfl
    rw [missing] at found
    cases found
  · intro key listed absent
    refine (Table.find?_insert_of_ne _ _ ?_).trans absent
    rintro rfl
    exact idle listed

/-- Building a summary leaves it to the caller to keep it. -/
theorem buildSummary {trace : Node -> Tracing Deps}
    (returns : forall body, declaration.child? "body" = some body ->
      Advances Grown program (traceReturns trace declaration body))
    (idle : declaration.key ∉ memory.inProgress)
    (missing : memory.summaries.find? declaration.key = none) :
    let final := Ending.memory (buildSummary trace declaration program memory)
    Grown memory final ∧ final.summaries.find? declaration.key = none := by
  intro final
  have built : Concludes program memory (Flow.buildSummary trace declaration)
      (fun _ final => Grown memory final ∧ final.summaries.find? declaration.key = none)
      fun _ final => Grown memory final ∧ final.summaries.find? declaration.key = none := by
    cases found : declaration.child? "body" with
    | none => exact (Concludes.buildSummary_without_body_iff found).2 ⟨advance.refl memory, missing⟩
    | some body =>
        have left : forall after, Grown (memory.enter declaration) after ->
            Grown memory (after.leave memory declaration) ∧
              after.summaries.find? declaration.key = none := fun after grown =>
          ⟨grown.leave idle, grown.waiting declaration.key (List.mem_cons_self ..) missing⟩
        refine (Concludes.buildSummary_iff found).2 (Concludes.mono
          (Concludes.memory_iff.2 (returns body found (memory.enter declaration))) ?_ fun _ => left)
        intro result after grown
        obtain ⟨grown, absent⟩ := left after grown
        exact ⟨advance.trans _ _ _ grown (advance.remark _ _), absent⟩
  exact Concludes.memory_iff.1 built

/-- A memory grows when a summary is asked for that is not being built. -/
theorem summaryOf {trace : Node -> Tracing Deps}
    (returns : forall body, declaration.child? "body" = some body ->
      Advances Grown program (traceReturns trace declaration body))
    (idle : declaration.key ∉ memory.inProgress) :
    Grown memory (Ending.memory (summaryOf trace declaration program memory)) := by
  refine Concludes.memory_iff.1 (Concludes.summaryOf_iff.2 ?_)
  cases found : memory.summaries.find? declaration.key with
  | some summary => exact advance.refl memory
  | none =>
      have built : Concludes program memory (Flow.buildSummary trace declaration)
          (fun _ after => Grown memory after ∧ after.summaries.find? declaration.key = none)
          fun _ after => Grown memory after ∧ after.summaries.find? declaration.key = none :=
        Concludes.memory_iff.2 (buildSummary returns idle found)
      refine Concludes.mono built ?_ fun _ _ ends => ends.1
      rintro summary after ⟨grown, missing⟩
      have still : declaration.key ∉ after.inProgress := by
        rw [grown.inProgress]
        exact idle
      exact advance.trans _ _ _ grown (keepSummary still missing summary)

end Grown

end PhpTaint.Flow
