import PhpTaint.Proofs.Flow.Growth
import PhpTaint.Proofs.Flow.Steps

/-!
# What a call hands over

A call with positional arguments traces the arguments and then the default values of
the parameters that are left over. Which of these goes to which parameter can be read
off the call, so binding is tracing everything that is handed over and then filling a
table: `bindArguments_handed`.
-/

namespace PhpTaint.Flow

open Scopes Syntax Rules

/-- An argument that passes one value to the next parameter. -/
structure Positional (argument value : Node) : Prop where
  passes : argument.argumentValue = some value
  unnamed : argument.argumentName = ""
  plain : value.kind ≠ "variadic_unpacking"

/-- The parameters that positional arguments go to, from a position on. A variadic
parameter takes all further arguments, and an argument without a parameter goes
nowhere. -/
def receivers (parameters : List Node) : Nat -> Nat -> List (Option String)
  | _, 0 => []
  | position, count + 1 =>
      match parameters[position]? with
      | some parameter =>
          some parameter.parameterName :: receivers parameters
            (if parameter.kind = "variadic_parameter" then position else position + 1) count
      | none => none :: receivers parameters position count

/-- What a call with positional arguments hands over, with the parameter that each
expression goes to. -/
def handedOver (declaration : Node) (values : List Node) : List (Option String × Node) :=
  let received := receivers declaration.parameters 0 values.length
  received.zip values ++ fallbacks (received.filterMap id) declaration.parameters

/-- Trace what is handed over. -/
def traceHanded (trace : Node -> Tracing Deps) (handed : List (Option String × Node)) :
    Tracing (List (Option String × Deps)) :=
  handed.mapM fun item => do
    let deps ← trace item.2
    return (item.1, deps)

section Tracing

variable {α β : Type} {program : Program} {memory after : Memory} {trace : Node -> Tracing Deps}
  {handed : List (Option String × Node)} {passed : List (Option String × Deps)}

/-- A list of steps succeeds if the first one does and the others do after it. -/
theorem mapM_cons_eq_ok {step : β -> Tracing α} {item : β} {rest : List β} {results : List α} :
    (item :: rest).mapM step program memory = .ok results after ↔
      ∃ value middle others, step item program memory = .ok value middle ∧
        rest.mapM step program middle = .ok others after ∧ results = value :: others := by
  rw [List.mapM_cons, run_bind]
  cases step item program memory with
  | error fault middle => simp
  | ok value middle =>
      simp only [run_bind]
      cases later : rest.mapM step program middle with
      | error fault final =>
          constructor
          · intro ended
            cases ended
          · rintro ⟨_, _, _, ⟨⟩, same, _⟩
            rw [later] at same
            cases same
      | ok others final =>
          constructor
          · intro ended
            cases ended
            exact ⟨value, middle, others, rfl, later, rfl⟩
          · rintro ⟨_, _, _, ⟨⟩, same, rfl⟩
            rw [later] at same
            cases same
            rfl

/-- What is handed over is traced one item after the other. -/
theorem traceHanded_cons {item : Option String × Node}
    (traced : traceHanded trace (item :: handed) program memory = .ok passed after) :
    ∃ deps middle others, trace item.2 program memory = .ok deps middle ∧
      traceHanded trace handed program middle = .ok others after ∧
      passed = (item.1, deps) :: others := by
  obtain ⟨value, middle, others, first, later, rfl⟩ := mapM_cons_eq_ok.1 traced
  rw [run_bind] at first
  cases run : trace item.2 program memory with
  | error fault final =>
      rw [run] at first
      cases first
  | ok deps final =>
      rw [run] at first
      cases first
      exact ⟨deps, middle, others, rfl, later, rfl⟩

/-- What is handed over in two groups is traced one group after the other. -/
theorem traceHanded_append {more : List (Option String × Node)}
    (traced : traceHanded trace (handed ++ more) program memory = .ok passed after) :
    ∃ first middle second, traceHanded trace handed program memory = .ok first middle ∧
      traceHanded trace more program middle = .ok second after ∧ passed = first ++ second := by
  induction handed generalizing memory passed with
  | nil => exact ⟨[], memory, passed, rfl, traced, rfl⟩
  | cons item rest inductionHypothesis =>
      obtain ⟨deps, middle, others, here, later, rfl⟩ := traceHanded_cons traced
      obtain ⟨first, final, second, begins, ends, rfl⟩ := inductionHypothesis later
      refine ⟨(item.1, deps) :: first, final, second, ?_, ends, rfl⟩
      refine mapM_cons_eq_ok.2 ⟨(item.1, deps), middle, first, ?_, begins, rfl⟩
      rw [run_bind_ok here]
      rfl

/-- Tracing leaves the receivers as they are. -/
theorem map_fst_of_traceHanded
    (traced : traceHanded trace handed program memory = .ok passed after) :
    passed.map Prod.fst = handed.map Prod.fst := by
  induction handed generalizing memory passed with
  | nil =>
      cases traced
      rfl
  | cons item rest inductionHypothesis =>
      obtain ⟨deps, middle, others, _, later, rfl⟩ := traceHanded_cons traced
      rw [List.map_cons, List.map_cons, inductionHypothesis later]

end Tracing

section Binding

variable {program : Program} {memory after : Memory} {trace : Node -> Tracing Deps}
  {summary : Summary} {arguments values : List Node} {passed : List (Option String × Deps)}

/-- There is one receiver for each argument. -/
theorem length_receivers (parameters : List Node) (position count : Nat) :
    (receivers parameters position count).length = count := by
  induction count generalizing position with
  | zero => rfl
  | succ count inductionHypothesis =>
      rw [receivers]
      split
      · rw [List.length_cons, inductionHypothesis]
      · rw [List.length_cons, inductionHypothesis]

/-- A name is bound if it was before or something is handed to it. -/
theorem contains_foldl_bindHanded {bound : Table String Deps} {name : String} :
    (passed.foldl bindHanded bound).contains name = true ↔
      some name ∈ passed.map Prod.fst ∨ bound.contains name = true := by
  induction passed generalizing bound with
  | nil => simp
  | cons item rest inductionHypothesis =>
      obtain ⟨receiver, deps⟩ := item
      rw [List.foldl_cons, inductionHypothesis, List.map_cons, List.mem_cons]
      cases receiver with
      | none => simp [bindHanded]
      | some other =>
          simp only [bindHanded, contains_bindName, Option.some.injEq]
          tauto

/-- Positional arguments go to their receivers. -/
theorem foldlM_bindArgument_handed (bound : Bound)
    (positional : List.Forall₂ Positional arguments values)
    (traced : traceHanded trace
      ((receivers summary.parameters bound.position values.length).zip values) program memory =
        .ok passed after) :
    ∃ final, arguments.foldlM (bindArgument trace summary) bound program memory =
      .ok ⟨passed.foldl bindHanded bound.arguments, final⟩ after := by
  induction positional generalizing bound memory passed with
  | nil =>
      cases traced
      exact ⟨bound.position, rfl⟩
  | @cons argument value arguments values one _ inductionHypothesis =>
      have step : forall deps middle, trace value program memory = .ok deps middle ->
          bindArgument trace summary bound argument program memory =
            .ok (bound.bind summary argument value deps) middle := by
        intro deps middle first
        unfold bindArgument
        rw [one.passes]
        simp only
        rw [run_bind_ok first]
        rfl
      rw [List.length_cons, receivers] at traced
      cases taken : summary.parameters[bound.position]? with
      | none =>
          simp only [taken] at traced
          obtain ⟨deps, middle, others, first, later, rfl⟩ := traceHanded_cons traced
          have bind : bound.bind summary argument value deps = bound := by
            simp [Bound.bind, one.unnamed, one.plain, taken]
          rw [List.foldlM_cons, run_bind_ok (step deps middle first), bind]
          rw [List.foldl_cons]
          exact inductionHypothesis bound later
      | some parameter =>
          simp only [taken] at traced
          obtain ⟨deps, middle, others, first, later, rfl⟩ := traceHanded_cons traced
          have bind : bound.bind summary argument value deps =
              ⟨bindName bound.arguments parameter.parameterName deps,
                if parameter.kind = "variadic_parameter" then bound.position
                else bound.position + 1⟩ := by
            simp [Bound.bind, one.unnamed, one.plain, taken]
          rw [List.foldlM_cons, run_bind_ok (step deps middle first), bind]
          exact inductionHypothesis _ later

/-- Parameters that are left over take their default values. -/
theorem foldlM_bindFallback_handed {bound : Table String Deps} {handed : List (Option String × Node)}
    (traced : traceHanded trace handed program memory = .ok passed after) :
    handed.foldlM (bindFallback trace) bound program memory =
      .ok (passed.foldl bindHanded bound) after := by
  induction handed generalizing bound memory passed with
  | nil =>
      cases traced
      rfl
  | cons item rest inductionHypothesis =>
      obtain ⟨deps, middle, others, first, later, rfl⟩ := traceHanded_cons traced
      have step : bindFallback trace bound item program memory =
          .ok (bindHanded bound (item.1, deps)) middle := by
        unfold bindFallback
        rw [run_bind_ok first]
        rfl
      rw [List.foldlM_cons, run_bind_ok step]
      exact inductionHypothesis later

/-- Binding is tracing what is handed over and filling a table. -/
theorem bindArguments_handed (positional : List.Forall₂ Positional arguments values)
    (traced : traceHanded trace (handedOver summary.declaration values) program memory =
      .ok passed after) :
    bindArguments trace summary arguments program memory =
      .ok (passed.foldl bindHanded ∅) after := by
  obtain ⟨first, middle, second, given, left, rfl⟩ := traceHanded_append traced
  obtain ⟨final, bound⟩ := foldlM_bindArgument_handed ⟨∅, 0⟩ positional given
  have agrees : forall name, (first.foldl bindHanded ∅).contains name = true ↔
      name ∈ (receivers summary.declaration.parameters 0 values.length).filterMap id := by
    intro name
    have names := map_fst_of_traceHanded given
    rw [List.map_fst_zip (Nat.le_of_eq (length_receivers ..))] at names
    rw [contains_foldl_bindHanded, names]
    simp [Table.contains]
  unfold bindArguments
  rw [run_bind_ok bound, List.foldl_append, foldlM_bindDefault agrees]
  exact foldlM_bindFallback_handed left

end Binding

end PhpTaint.Flow
