import PhpTaint.Flow.Expression

/-!
# How a step of tracing concludes

`Concludes` states of a step of tracing what holds when it ends with a value and
what holds when it ends with a fault. There is one rule for each way in which
steps are put together, so a property of tracing is proved by following its
definitions.
-/

namespace PhpTaint.Flow

open Scopes Syntax Rules

variable {α β γ : Type} {program : Program} {memory : Memory}

/-- A step ends with a value and a memory that satisfy `good`, or with a fault and
a memory that satisfy `bad`. -/
def Concludes (program : Program) (memory : Memory) (step : Tracing α)
    (good : α -> Memory -> Prop) (bad : Fault -> Memory -> Prop) : Prop :=
  match step program memory with
  | .ok value after => good value after
  | .error fault after => bad fault after

namespace Memory

/-- The memory with a definition that is being followed. -/
def activate (memory : Memory) (key : Key) : Memory :=
  { memory with tracer := { memory.tracer with active := key :: memory.tracer.active } }

/-- The memory after a definition was followed. -/
def release (memory : Memory) (key : Key) : Memory :=
  { memory with tracer :=
      { memory.tracer with active := memory.tracer.active.filter fun other => other ≠ key } }

/-- The memory with the dependencies of a definition that was followed. -/
def keepTraced (memory : Memory) (key : Key) (deps : Deps) : Memory :=
  { memory with tracer := { memory.tracer with traced := memory.tracer.traced.insert key deps } }

/-- The memory with another tracer. -/
def withTracer (memory : Memory) (tracer : Tracer) : Memory := { memory with tracer := tracer }

/-- The memory with a summary that is being built. -/
def begin (memory : Memory) (key : Key) : Memory :=
  { memory with inProgress := key :: memory.inProgress }

/-- The memory after a summary was built. -/
def finish (memory : Memory) (key : Key) : Memory :=
  { memory with inProgress := memory.inProgress.filter fun other => other ≠ key }

/-- The memory in which the return statements of a declaration are traced. -/
def enter (memory : Memory) (declaration : Node) : Memory :=
  (memory.begin declaration.key).withTracer (Tracer.fresh declaration.parameterNames true)

/-- The memory after the return statements of a declaration were traced. -/
def leave (after memory : Memory) (declaration : Node) : Memory :=
  (after.withTracer memory.tracer).finish declaration.key

/-- The memory with one more note. -/
def note (memory : Memory) (text : String) : Memory :=
  { memory with journal := ⟨.debug, .flow, text⟩ :: memory.journal }

/-- The memory with the summary of a declaration. -/
def keepSummary (memory : Memory) (declaration : Node) (summary : Summary) : Memory :=
  { memory with summaries := memory.summaries.insert declaration.key summary }

end Memory

/-- A mark that was set on top is removed without touching the others. -/
theorem filter_cons_ne {key : Key} {keys : List Key} (fresh : key ∉ keys) :
    (key :: keys).filter (fun other => other ≠ key) = keys := by
  rw [List.filter_cons_of_neg (by simp), List.filter_eq_self.2]
  intro other listed
  exact decide_eq_true fun same => fresh (same ▸ listed)

/-- A definition that was followed is no longer active. -/
theorem Memory.active_release {after : Memory} {key : Key}
    (active : after.tracer.active = key :: memory.tracer.active)
    (inactive : key ∉ memory.tracer.active) :
    (after.release key).tracer.active = memory.tracer.active := by
  show after.tracer.active.filter (fun other => other ≠ key) = memory.tracer.active
  rw [active]
  exact filter_cons_ne inactive

/-- A summary that was built is no longer being built. -/
theorem Memory.inProgress_leave {after : Memory} {declaration : Node}
    (entered : after.inProgress = declaration.key :: memory.inProgress)
    (idle : declaration.key ∉ memory.inProgress) :
    (after.leave memory declaration).inProgress = memory.inProgress := by
  show after.inProgress.filter (fun other => other ≠ declaration.key) = memory.inProgress
  rw [entered]
  exact filter_cons_ne idle

/-- The note on a summary that was built. -/
def summaryNote (declaration : Node) (returns : Table Nat Deps) : String :=
  "Analysed " ++ functionName declaration ++ ": " ++ toString declaration.parameters.length ++
    " parameters, " ++ toString returns.size ++ " return lines"

/-- The summary of a declaration with a body. -/
def Summary.ofReturns (declaration body : Node) (returns : Table Nat Deps) (tracer : Tracer) :
    Summary :=
  ⟨declaration, if declaration.construct = .arrowFunction then [] else body.namedChildren, returns,
    tracer⟩

/-- The summary of a declaration without a body. -/
def Summary.ofNothing (declaration : Node) : Summary :=
  ⟨declaration, [], ∅, Tracer.fresh declaration.parameterNames true⟩

namespace Concludes

variable {good better : α -> Memory -> Prop} {bad worse : Fault -> Memory -> Prop}

/-- What a step concludes may be weakened. -/
theorem mono {step : Tracing α} (concludes : Concludes program memory step good bad)
    (values : forall value after, good value after -> better value after)
    (faults : forall fault after, bad fault after -> worse fault after) :
    Concludes program memory step better worse := by
  unfold Concludes at concludes ⊢
  cases run : step program memory with
  | ok value after =>
      rw [run] at concludes
      exact values value after concludes
  | error fault after =>
      rw [run] at concludes
      exact faults fault after concludes

/-- What a step concludes may be replaced by what is equivalent. -/
theorem iff_of_good {step : Tracing α} (same : forall value after, good value after ↔ better value after) :
    Concludes program memory step good bad ↔ Concludes program memory step better bad :=
  ⟨fun concludes => concludes.mono (fun value after => (same value after).1) fun _ _ faulty => faulty,
    fun concludes => concludes.mono (fun value after => (same value after).2) fun _ _ faulty => faulty⟩

/-- What holds of a run that ended with a value. -/
theorem of_ok {step : Tracing α} {value : α} {after : Memory}
    (concludes : Concludes program memory step good bad)
    (ended : step program memory = .ok value after) : good value after := by
  unfold Concludes at concludes
  rw [ended] at concludes
  exact concludes

/-- What holds of a run that ended with a fault. -/
theorem of_error {step : Tracing α} {fault : Fault} {after : Memory}
    (concludes : Concludes program memory step good bad)
    (ended : step program memory = .error fault after) : bad fault after := by
  unfold Concludes at concludes
  rw [ended] at concludes
  exact concludes

/-- Two conclusions of one step hold together. -/
theorem both {step : Tracing α} (first : Concludes program memory step good bad)
    (second : Concludes program memory step better worse) :
    Concludes program memory step (fun value after => good value after ∧ better value after)
      (fun fault after => bad fault after ∧ worse fault after) := by
  unfold Concludes at *
  cases run : step program memory with
  | ok value after =>
      rw [run] at first second
      exact ⟨first, second⟩
  | error fault after =>
      rw [run] at first second
      exact ⟨first, second⟩

@[simp] theorem pure_iff (value : α) :
    Concludes program memory (pure value : Tracing α) good bad ↔ good value memory := Iff.rfl

@[simp] theorem throw_iff (fault : Fault) :
    Concludes program memory (throw fault : Tracing α) good bad ↔ bad fault memory := Iff.rfl

/-- A step goes on from whatever its first part concludes. -/
@[simp] theorem bind_iff (step : Tracing β) (next : β -> Tracing α) :
    Concludes program memory (step >>= next) good bad ↔
      Concludes program memory step
        (fun value after => Concludes program after (next value) good bad) bad := by
  unfold Concludes
  show (match EStateM.bind (step program) (fun value => next value program) memory with
    | .ok value after => good value after
    | .error fault after => bad fault after) ↔ _
  unfold EStateM.bind
  cases step program memory <;> exact Iff.rfl

@[simp] theorem map_iff (change : β -> α) (step : Tracing β) :
    Concludes program memory (change <$> step) good bad ↔
      Concludes program memory step (fun value after => good (change value) after) bad := by
  rw [← bind_pure_comp, bind_iff]
  rfl

@[simp] theorem read_iff {good : Program -> Memory -> Prop} :
    Concludes program memory (read : Tracing Program) good bad ↔ good program memory := Iff.rfl

@[simp] theorem get_iff {good : Memory -> Memory -> Prop} :
    Concludes program memory (get : Tracing Memory) good bad ↔ good memory memory := Iff.rfl

@[simp] theorem modify_iff {good : PUnit -> Memory -> Prop} (change : Memory -> Memory) :
    Concludes program memory (modify change : Tracing PUnit) good bad ↔
      good ⟨⟩ (change memory) := Iff.rfl

@[simp] theorem remark_iff {good : Unit -> Memory -> Prop} (text : String) :
    Concludes program memory (remark text) good bad ↔
      good () { memory with journal := ⟨.debug, .flow, text⟩ :: memory.journal } := Iff.rfl

@[simp] theorem updateTracer_iff {good : Unit -> Memory -> Prop} (change : Tracer -> Tracer) :
    Concludes program memory (updateTracer change) good bad ↔
      good () { memory with tracer := change memory.tracer } := Iff.rfl

/-- A node without a scope ends the step with a fault. -/
@[simp] theorem scopeOfNode_iff {good : ScopeId -> Memory -> Prop} (node : Node) :
    Concludes program memory (scopeOfNode node) good bad ↔
      match program.registry.scopeOf program.globalScope node with
      | .ok scope => good scope memory
      | .error fault => bad fault memory := by
  unfold scopeOfNode
  rw [bind_iff, read_iff]
  unfold orFault
  cases program.registry.scopeOf program.globalScope node <;> exact Iff.rfl

/-- The mark on a definition is set before the step and removed on either end. -/
theorem whileActive_iff (key : Key) (step : Tracing α) :
    Concludes program memory (whileActive key step) good bad ↔
      Concludes program (memory.activate key) step
        (fun value after => good value (after.release key))
        (fun fault after => bad fault (after.release key)) := by
  unfold Concludes whileActive Memory.activate Memory.release
  simp only
  cases step program
    { memory with tracer := { memory.tracer with active := key :: memory.tracer.active } } <;>
    exact Iff.rfl

/-- The mark on a declaration is set before the step and removed on either end. -/
theorem whileInProgress_iff (key : Key) (step : Tracing α) :
    Concludes program memory (whileInProgress key step) good bad ↔
      Concludes program (memory.begin key) step
        (fun value after => good value (after.finish key))
        (fun fault after => bad fault (after.finish key)) := by
  unfold Concludes whileInProgress Memory.begin Memory.finish
  simp only
  cases step program { memory with inProgress := key :: memory.inProgress } <;> exact Iff.rfl

/-- The tracer of a step is put back on either end. -/
theorem withTracer_iff {good : α × Tracer -> Memory -> Prop} (tracer : Tracer)
    (step : Tracing α) :
    Concludes program memory (withTracer tracer step) good bad ↔
      Concludes program (memory.withTracer tracer) step
        (fun value after => good (value, after.tracer) (after.withTracer memory.tracer))
        (fun fault after => bad fault (after.withTracer memory.tracer)) := by
  unfold Concludes withTracer Memory.withTracer
  cases step program { memory with tracer := tracer } <;> exact Iff.rfl

section Summaries

variable {trace : Node -> Tracing Deps} {declaration body : Node}
  {good : Summary -> Memory -> Prop}

/-- A function without a body has the summary of nothing. -/
theorem buildSummary_without_body_iff (missing : declaration.child? "body" = none) :
    Concludes program memory (buildSummary trace declaration) good bad ↔
      good (Summary.ofNothing declaration) memory := by
  unfold buildSummary
  rw [missing]
  exact Iff.rfl

/-- Building a summary is tracing the return statements in a memory of their own. -/
theorem buildSummary_iff (found : declaration.child? "body" = some body) :
    Concludes program memory (buildSummary trace declaration) good bad ↔
      Concludes program (memory.enter declaration) (traceReturns trace declaration body)
        (fun returns after => good (Summary.ofReturns declaration body returns after.tracer)
          ((after.leave memory declaration).note (summaryNote declaration returns)))
        (fun fault after => bad fault (after.leave memory declaration)) := by
  unfold buildSummary
  rw [found]
  simp only [bind_iff, whileInProgress_iff, withTracer_iff, remark_iff, pure_iff]
  exact Iff.rfl

/-- A summary that is not found is built and kept. -/
theorem summaryOf_iff :
    Concludes program memory (summaryOf trace declaration) good bad ↔
      match memory.summaries.find? declaration.key with
      | some summary => good summary memory
      | none =>
          Concludes program memory (buildSummary trace declaration)
            (fun summary after => good summary (after.keepSummary declaration summary)) bad := by
  unfold summaryOf
  rw [bind_iff, get_iff]
  cases memory.summaries.find? declaration.key with
  | some summary => exact Iff.rfl
  | none =>
      simp only [bind_iff, modify_iff, pure_iff]
      exact Iff.rfl

end Summaries

/-- A pass that maps a list: `kept` relates what has been done to its results. -/
theorem mapM {step : β -> Tracing α} {items : List β}
    (kept : List β -> List α -> Memory -> Prop) (holds : kept [] [] memory)
    (steps : forall done item rest, items = done ++ item :: rest -> forall results memory,
      kept done results memory ->
        Concludes program memory (step item)
          (fun value after => kept (done ++ [item]) (results ++ [value]) after) bad) :
    Concludes program memory (items.mapM step) (fun results after => kept items results after)
      bad := by
  suffices suffix : forall rest done results memory, items = done ++ rest ->
      kept done results memory ->
      Concludes program memory (rest.mapM step)
        (fun values after => kept items (results ++ values) after) bad by
    simpa using suffix items [] [] memory rfl holds
  intro rest
  induction rest with
  | nil =>
      intro done results memory itemsEq holds
      rw [List.mapM_nil, pure_iff, List.append_nil, itemsEq, List.append_nil]
      exact holds
  | cons item rest inductionHypothesis =>
      intro done results memory itemsEq holds
      rw [List.mapM_cons, bind_iff]
      refine (steps done item rest itemsEq results memory holds).mono ?_ fun _ _ faulty => faulty
      intro value after holds
      rw [bind_iff]
      have later := inductionHypothesis (done ++ [item]) (results ++ [value]) after
        (by rw [itemsEq, List.append_assoc, List.singleton_append]) holds
      refine later.mono ?_ fun _ _ faulty => faulty
      intro values final holds
      rw [pure_iff]
      rw [List.append_assoc, List.singleton_append] at holds
      exact holds

/-- A pass that folds a list: `kept` relates what has been done to the value that
is handed on. -/
theorem foldlM {step : α -> β -> Tracing α} {items : List β} {start : α}
    (kept : List β -> α -> Memory -> Prop) (holds : kept [] start memory)
    (steps : forall done item rest, items = done ++ item :: rest -> forall value memory,
      kept done value memory ->
        Concludes program memory (step value item)
          (fun next after => kept (done ++ [item]) next after) bad) :
    Concludes program memory (items.foldlM step start) (fun result after => kept items result after)
      bad := by
  suffices suffix : forall rest done value memory, items = done ++ rest -> kept done value memory ->
      Concludes program memory (rest.foldlM step value)
        (fun result after => kept items result after) bad by
    exact suffix items [] start memory rfl holds
  intro rest
  induction rest with
  | nil =>
      intro done value memory itemsEq holds
      rw [List.foldlM_nil, pure_iff, itemsEq, List.append_nil]
      exact holds
  | cons item rest inductionHypothesis =>
      intro done value memory itemsEq holds
      rw [List.foldlM_cons, bind_iff]
      refine (steps done item rest itemsEq value memory holds).mono ?_ fun _ _ faulty => faulty
      intro next after holds
      exact inductionHypothesis (done ++ [item]) next after
        (by rw [itemsEq, List.append_assoc, List.singleton_append]) holds

end Concludes

end PhpTaint.Flow
