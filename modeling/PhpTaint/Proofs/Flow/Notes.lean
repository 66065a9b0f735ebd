import PhpTaint.Proofs.Flow.Unwinding
import PhpTaint.Proofs.Tandem

/-!
# Notes are taken and never read

Tracing writes to the journal and never looks into it. So from two memories that
differ in their notes only, every step ends in the same way, and in two such memories
again.
-/

namespace PhpTaint.Flow

open Scopes Syntax Rules

variable {α β : Type} {program : Program}

/-- Two memories differ in their notes only. -/
structure Memory.Alike (first second : Memory) : Prop where
  tracer : first.tracer = second.tracer
  summaries : first.summaries = second.summaries
  inProgress : first.inProgress = second.inProgress

/-- A step does not look at the notes. -/
abbrev Unread (program : Program) (step : Tracing α) : Prop :=
  Tandem Memory.Alike Eq (step program) (step program)

namespace Unread

theorem orFault (result : Except Fault α) : Unread program (orFault result) := by
  cases result with
  | ok value => exact Tandem.pure rfl
  | error fault => exact Tandem.throw fault

theorem remark (text : String) : Unread program (remark text) :=
  Tandem.change fun _ _ alike => ⟨alike.tracer, alike.summaries, alike.inProgress⟩

theorem updateTracer (change : Tracer -> Tracer) : Unread program (updateTracer change) :=
  Tandem.change fun _ _ alike => ⟨congrArg change alike.tracer, alike.summaries, alike.inProgress⟩

/-- Two steps that read no notes read none one after the other. -/
theorem bind {first : Tracing β} {next : β -> Tracing α} (begins : Unread program first)
    (continues : forall value, Unread program (next value)) : Unread program (first >>= next) :=
  Tandem.bind_eq begins continues

/-- What follows a look at the memory. -/
theorem look {next : Memory -> Tracing α}
    (continues : forall first second : Memory, first.Alike second ->
      EndAlike Memory.Alike Eq (next first program first) (next second program second)) :
    Unread program (get >>= next) := continues

/-- A mark on a definition reads no notes. -/
theorem whileActive {step : Tracing α} (unread : Unread program step) (key : Key) :
    Unread program (whileActive key step) := by
  intro first second alike
  have entered : (first.activate key).Alike (second.activate key) :=
    ⟨congrArg (fun tracer : Tracer => { tracer with active := key :: tracer.active }) alike.tracer,
      alike.summaries, alike.inProgress⟩
  have released : forall {first second : Memory}, first.Alike second ->
      (first.release key).Alike (second.release key) := fun after =>
    ⟨congrArg (fun tracer : Tracer =>
      { tracer with active := tracer.active.filter fun other => other ≠ key }) after.tracer,
      after.summaries, after.inProgress⟩
  have ended := unread _ _ entered
  rw [run_whileActive, run_whileActive]
  generalize step program (first.activate key) = outcome at ended
  generalize step program (second.activate key) = other at ended
  cases ended with
  | ok same after => exact .ok same (released after)
  | error fault after => exact .error fault (released after)

/-- A mark on a declaration reads no notes. -/
theorem whileInProgress {step : Tracing α} (unread : Unread program step) (key : Key) :
    Unread program (whileInProgress key step) := by
  intro first second alike
  have entered : (first.begin key).Alike (second.begin key) :=
    ⟨alike.tracer, alike.summaries, congrArg (key :: ·) alike.inProgress⟩
  have finished : forall {first second : Memory}, first.Alike second ->
      (first.finish key).Alike (second.finish key) := fun after =>
    ⟨after.tracer, after.summaries, congrArg (List.filter _) after.inProgress⟩
  have ended := unread _ _ entered
  rw [run_whileInProgress, run_whileInProgress]
  generalize step program (first.begin key) = outcome at ended
  generalize step program (second.begin key) = other at ended
  cases ended with
  | ok same after => exact .ok same (finished after)
  | error fault after => exact .error fault (finished after)

/-- A change of the tracer reads no notes. -/
theorem withTracer {step : Tracing α} (unread : Unread program step) (tracer : Tracer) :
    Unread program (withTracer tracer step) := by
  intro first second alike
  have entered : (first.withTracer tracer).Alike (second.withTracer tracer) :=
    ⟨rfl, alike.summaries, alike.inProgress⟩
  have ended := unread _ _ entered
  rw [run_withTracer, run_withTracer]
  generalize step program (first.withTracer tracer) = outcome at ended
  generalize step program (second.withTracer tracer) = other at ended
  cases ended with
  | ok same after =>
      exact .ok (by rw [same, after.tracer]) ⟨alike.tracer, after.summaries, after.inProgress⟩
  | error fault after => exact .error fault ⟨alike.tracer, after.summaries, after.inProgress⟩

/-- A summary is asked for without reading notes. -/
theorem summaryOf {trace : Node -> Tracing Deps} {declaration : Node}
    (returns : forall body, declaration.child? "body" = some body ->
      Unread program (traceReturns trace declaration body)) :
    Unread program (summaryOf trace declaration) := by
  have built : Unread program (buildSummary trace declaration) := by
    unfold Flow.buildSummary
    cases found : declaration.child? "body" with
    | none => exact Tandem.pure rfl
    | some body =>
        exact bind (whileInProgress (withTracer (returns body found) _) _) fun _ =>
          bind (remark _) fun _ => Tandem.pure rfl
  have kept : forall summary, Unread program (do
      modify fun memory : Memory =>
        { memory with summaries := memory.summaries.insert declaration.key summary }
      return summary) := by
    intro summary
    refine Tandem.bind_eq (Tandem.change fun _ _ after => ?_) fun _ => Tandem.pure rfl
    exact ⟨after.tracer, congrArg (Table.insert · declaration.key summary) after.summaries,
      after.inProgress⟩
  refine look fun first second alike => ?_
  rw [alike.summaries]
  cases second.summaries.find? declaration.key with
  | some summary => exact .ok rfl alike
  | none => exact bind built kept first second alike

end Unread

/-- Every way of using a visitor leaves the notes unread. -/
theorem Uniform.unread {declared : Node -> Prop} {visitor : Visitor}
    (traces : forall node, Unread program (visitor.trace node))
    (definitions : forall name node, Unread program (visitor.definition name node))
    {step : Visitor -> Tracing α} (uniform : Uniform program declared step) :
    Unread program (step visitor) := by
  induction uniform with
  | pure value => exact Tandem.pure rfl
  | orFault result => exact .orFault result
  | read _ inductionHypothesis => exact inductionHypothesis
  | @look _ next tracerOnly _ inductionHypothesis =>
      intro first second alike
      have same := tracerOnly first second alike.tracer
      show EndAlike Memory.Alike Eq (next first visitor program first)
        (next second visitor program second)
      rw [same]
      exact inductionHypothesis second first second alike
  | remark text => exact .remark text
  | updateTracer change => exact .updateTracer change
  | trace node => exact traces node
  | definition name node => exact definitions name node
  | bind _ _ begins continues => exact .bind begins continues
  | whileActive key _ inductionHypothesis => exact .whileActive inductionHypothesis key
  | @summary _ declaration text answer next _ _ _ _ inner continues =>
      intro first second alike
      by_cases listed : declaration.key ∈ first.inProgress
      · rw [enterSummary_recursive listed, enterSummary_recursive (alike.inProgress ▸ listed)]
        exact .ok rfl ⟨alike.tracer, alike.summaries, alike.inProgress⟩
      · rw [enterSummary_idle listed, enterSummary_idle (alike.inProgress ▸ listed)]
        exact Unread.bind (.summaryOf inner) continues first second alike

/-- Tracing leaves the notes unread. -/
theorem visitor_unread (depth : Nat) {step : Visitor -> Tracing α}
    (uniform : Uniform program (fun _ => True) step) : Unread program (step (visitor depth)) := by
  induction depth generalizing α with
  | zero =>
      refine uniform.unread (fun node => ?_) (fun name node => ?_)
      · exact Tandem.throw Fault.tooDeep
      · exact Tandem.throw Fault.tooDeep
  | succ depth inductionHypothesis =>
      refine uniform.unread (fun node => ?_) (fun name node => ?_)
      · exact inductionHypothesis (Uniform.traceNode node fun _ _ _ _ _ => trivial)
      · exact inductionHypothesis (Uniform.traceDefinition name node)

/-- A trace does not read what it notes. -/
theorem traceInPlace_unread (node : Node) : Unread program (traceInPlace node) :=
  Unread.bind (.withTracer (visitor_unread program.depth (.trace node)) _) fun _ => Tandem.pure rfl

end PhpTaint.Flow
