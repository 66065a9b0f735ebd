import PhpTaint.Proofs.Flow.Unwinding

/-!
# What stays within the bound does not notice it

Tracing has a bound on the nesting of flows, so that every trace ends. No rule looks at
that bound, and no rule goes on once a part has gone too deep. So a trace that did not go
too deep ends in the same way, with the same value or fault and in the same memory,
wherever the bound is higher.
-/

namespace PhpTaint.Flow

open Scopes Syntax Rules

variable {α β : Type} {program : Program}

/-- Unless the first step goes too deep, the second one ends in the same way. -/
def Deepens (program : Program) (shallow deep : Tracing α) : Prop :=
  forall memory, (∃ after, shallow program memory = .error .tooDeep after) ∨
    deep program memory = shallow program memory

namespace Deepens

theorem refl (step : Tracing α) : Deepens program step step := fun _ => Or.inr rfl

theorem tooDeep (deep : Tracing α) : Deepens program (throw .tooDeep) deep :=
  fun memory => Or.inl ⟨memory, rfl⟩

theorem bind {shallow deep : Tracing β} {shallowNext deepNext : β -> Tracing α}
    (begins : Deepens program shallow deep)
    (continues : forall value, Deepens program (shallowNext value) (deepNext value)) :
    Deepens program (shallow >>= shallowNext) (deep >>= deepNext) := by
  intro memory
  rcases begins memory with ⟨after, ended⟩ | same
  · exact Or.inl ⟨after, run_bind_error ended shallowNext⟩
  · cases run : shallow program memory with
    | error fault after =>
        exact Or.inr (by rw [run_bind_error run, run_bind_error (same.trans run)])
    | ok value after =>
        rw [run_bind_ok run, run_bind_ok (same.trans run)]
        exact continues value after

/-- What follows a look at the memory. -/
theorem look {shallowNext deepNext : Memory -> Tracing α}
    (continues : forall memory, Deepens program (shallowNext memory) (deepNext memory)) :
    Deepens program (get >>= shallowNext) (get >>= deepNext) :=
  fun memory => continues memory memory

/-- A step that is performed in a memory of its own, which is left also after a fault. -/
theorem inside {shallow deep : Tracing α} {wrap : Tracing α -> Tracing β}
    {enter : Memory -> Memory} {leave : Memory -> Memory -> Memory} {answer : α -> Memory -> β}
    (runs : forall step memory, wrap step program memory =
      match step program (enter memory) with
      | .ok value final => .ok (answer value final) (leave memory final)
      | .error fault final => .error fault (leave memory final))
    (deepens : Deepens program shallow deep) : Deepens program (wrap shallow) (wrap deep) := by
  intro memory
  rcases deepens (enter memory) with ⟨after, ended⟩ | same
  · exact Or.inl ⟨leave memory after, by rw [runs, ended]⟩
  · exact Or.inr (by rw [runs, runs, same])

theorem summaryOf {shallow deep : Node -> Tracing Deps} {declaration : Node}
    (returns : forall body, declaration.child? "body" = some body ->
      Deepens program (traceReturns shallow declaration body)
        (traceReturns deep declaration body)) :
    Deepens program (summaryOf shallow declaration) (summaryOf deep declaration) := by
  have built : Deepens program (buildSummary shallow declaration)
      (buildSummary deep declaration) := by
    unfold buildSummary
    cases found : declaration.child? "body" with
    | none => exact refl _
    | some body =>
        have traced := inside (fun step _ =>
          run_withTracer (Tracer.fresh declaration.parameterNames true) step) (returns body found)
        exact bind (inside (fun step _ => run_whileInProgress declaration.key step) traced)
          fun _ => refl _
  refine look fun memory => ?_
  cases memory.summaries.find? declaration.key with
  | some summary => exact refl _
  | none => exact bind built fun _ => refl _

end Deepens

/-- A rule deepens with its visitor. -/
theorem Uniform.deepens {declared : Node -> Prop} {shallow deep : Visitor}
    (traces : forall node, Deepens program (shallow.trace node) (deep.trace node))
    (definitions : forall name node,
      Deepens program (shallow.definition name node) (deep.definition name node))
    {step : Visitor -> Tracing α} (uniform : Uniform program declared step) :
    Deepens program (step shallow) (step deep) := by
  induction uniform with
  | pure value => exact .refl _
  | orFault result => exact .refl _
  | read _ inductionHypothesis => exact inductionHypothesis
  | look _ _ inductionHypothesis => exact .look inductionHypothesis
  | remark text => exact .refl _
  | updateTracer change => exact .refl _
  | trace node => exact traces node
  | definition name node => exact definitions name node
  | bind _ _ begins continues => exact .bind begins continues
  | whileActive key _ inductionHypothesis =>
      exact .inside (fun step _ => run_whileActive key step) inductionHypothesis
  | @summary _ declaration text answer next _ _ _ _ inner continues =>
      refine .look fun memory => ?_
      split
      · exact .refl _
      · exact .bind (.summaryOf inner) continues

/-- A rule ends in the same way wherever the bound is higher. -/
theorem visitor_deepens {depth deeper : Nat} (bound : depth <= deeper)
    {step : Visitor -> Tracing α} (uniform : Uniform program (fun _ => True) step) :
    Deepens program (step (visitor depth)) (step (visitor deeper)) := by
  induction depth generalizing deeper α with
  | zero => exact uniform.deepens (fun _ => .tooDeep _) fun _ _ => .tooDeep _
  | succ depth inductionHypothesis =>
      obtain ⟨lower, rfl⟩ : ∃ lower, deeper = lower + 1 := ⟨deeper - 1, by omega⟩
      refine uniform.deepens (fun node => ?_) fun name node => ?_
      · exact inductionHypothesis (Nat.le_of_succ_le_succ bound)
          (Uniform.traceNode node fun _ _ _ _ _ => trivial)
      · exact inductionHypothesis (Nat.le_of_succ_le_succ bound)
          (Uniform.traceDefinition name node)

/-- A trace that did not go too deep is the same at every greater depth. -/
theorem traceWithin_eq_of_le {depth deeper : Nat} (bound : depth <= deeper) {node : Node}
    {memory : Memory} (within : forall after,
      traceWithin depth node program memory ≠ .error .tooDeep after) :
    traceWithin deeper node program memory = traceWithin depth node program memory := by
  rcases visitor_deepens bound (.trace node) memory with ⟨after, ended⟩ | same
  · exact absurd ended (within after)
  · exact same

end PhpTaint.Flow
