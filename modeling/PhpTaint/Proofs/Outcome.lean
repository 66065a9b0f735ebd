import Mathlib.Data.List.Forall2

/-!
# Outcomes of steps with state

A step that keeps its state through a fault ends with a value or with a fault.
The lemmas here take a step that ended with a value apart: each says which
smaller steps ended with a value, and in which states. `Ends` is for what is
known of a step however it ends.
-/

namespace PhpTaint.Outcome

variable {ε σ α β : Type}

/-- Two steps succeed one after the other exactly if the second succeeds where the first left
off. -/
theorem bind_eq_ok {step : EStateM ε σ α} {next : α -> EStateM ε σ β} {before after : σ}
    {value : β} :
    (step >>= next) before = .ok value after ↔
      ∃ result middle, step before = .ok result middle ∧ next result middle = .ok value after := by
  show EStateM.bind step next before = .ok value after ↔ _
  unfold EStateM.bind
  cases step before with
  | ok result middle =>
      constructor
      · intro ended
        exact ⟨result, middle, rfl, ended⟩
      · rintro ⟨_, _, same, ended⟩
        cases same
        exact ended
  | error fault middle => simp

/-- A value succeeds with itself and changes nothing. -/
theorem pure_eq_ok {result value : α} {before after : σ} :
    (pure result : EStateM ε σ α) before = .ok value after ↔ result = value ∧ before = after := by
  show EStateM.Result.ok result before = .ok value after ↔ _
  rw [EStateM.Result.ok.injEq]

/-- Reading the state succeeds with it and changes nothing. -/
theorem get_eq_ok {before after value : σ} :
    (get : EStateM ε σ σ) before = .ok value after ↔ before = value ∧ before = after := by
  show EStateM.Result.ok before before = .ok value after ↔ _
  rw [EStateM.Result.ok.injEq]

/-- A step that begins with reading the state. -/
theorem run_get_bind {next : σ -> EStateM ε σ β} {before : σ} :
    (get >>= next) before = next before before := rfl

/-- Changing the state succeeds with the changed one. -/
theorem modify_eq_ok {change : σ -> σ} {before after : σ} {value : PUnit} :
    (modify change : EStateM ε σ PUnit) before = .ok value after ↔ change before = after := by
  show EStateM.Result.ok PUnit.unit (change before) = .ok value after ↔ _
  rw [EStateM.Result.ok.injEq]
  exact ⟨fun same => same.2, fun same => ⟨rfl, same⟩⟩

/-- A thrown fault never succeeds. -/
theorem throw_eq_ok {fault : ε} {before after : σ} {value : α} :
    (throw fault : EStateM ε σ α) before = .ok value after ↔ False := by
  constructor
  · intro same
    cases same
  · intro absurdity
    exact absurdity.elim

/-- Whether a run ended with a value that passes a check together with the state. -/
def passes (check : α -> σ -> Bool) : EStateM.Result ε σ α -> Bool
  | .ok value state => check value state
  | .error _ _ => false

/-- What passes a check is a success of which the check holds. -/
theorem exists_of_passes {check : α -> σ -> Bool} {outcome : EStateM.Result ε σ α}
    (passed : passes check outcome = true) :
    ∃ value state, outcome = .ok value state ∧ check value state = true := by
  cases outcome with
  | ok value state => exact ⟨value, state, rfl, passed⟩
  | error fault state => cases passed

/-- A step without state that leaves an answer ended with it. -/
theorem eq_ok_of_toOption {result : Except ε α} {value : α}
    (left : result.toOption = some value) : result = .ok value := by
  cases result with
  | ok answer => exact congrArg Except.ok (Option.some.inj left)
  | error fault => cases left

/-- A pass that folds what its steps give is the pass that collects it, and a fold. -/
theorem foldlM_eq_mapM {m : Type -> Type} [Monad m] [LawfulMonad m] {ι : Type}
    {pass : β -> ι -> m β} (step : ι -> m α) (add : β -> α -> β)
    (each : forall current item, pass current item = add current <$> step item)
    (items : List ι) (start : β) :
    items.foldlM pass start = (fun results => results.foldl add start) <$> items.mapM step := by
  induction items generalizing start with
  | nil => simp
  | cons item rest inductionHypothesis => simp [each, inductionHypothesis]

/-- A pass collects answers exactly if each of its steps has one. -/
theorem mapM_eq_some_iff {step : β -> Option α} {items : List β} {answers : List α} :
    items.mapM step = some answers ↔
      List.Forall₂ (fun item answer => step item = some answer) items answers := by
  induction items generalizing answers with
  | nil => simp [eq_comm]
  | cons item rest inductionHypothesis =>
      rw [List.mapM_cons, Option.bind_eq_bind, Option.bind_eq_some_iff]
      constructor
      · rintro ⟨answer, first, later⟩
        obtain ⟨others, collected, same⟩ := Option.bind_eq_some_iff.1 later
        cases same
        exact .cons first (inductionHypothesis.1 collected)
      · rintro (_ | ⟨first, later⟩)
        exact ⟨_, first, by rw [inductionHypothesis.2 later]; rfl⟩

/-- A run that passes no check at all ended with a fault. -/
theorem exists_of_not_passes {outcome : EStateM.Result ε σ α}
    (refused : passes (fun _ _ => true) outcome = false) :
    ∃ fault state, outcome = .error fault state := by
  cases outcome with
  | ok value state => cases refused
  | error fault state => exact ⟨fault, state, rfl⟩

/-- A pass over a list stays beside a fold over it, if each of its steps does. -/
theorem foldlM_beside {τ : Type} {step : α -> β -> EStateM ε σ α} {next : τ -> β -> τ}
    {items : List β} (beside : α -> σ -> τ -> Prop)
    (kept : forall item, item ∈ items -> forall start before other result after,
      beside start before other -> step start item before = .ok result after ->
        beside result after (next other item))
    {start result : α} {before after : σ} {other : τ} (holds : beside start before other)
    (ended : items.foldlM step start before = .ok result after) :
    beside result after (items.foldl next other) := by
  induction items generalizing start before other with
  | nil =>
      rw [List.foldlM_nil, pure_eq_ok] at ended
      obtain ⟨rfl, rfl⟩ := ended
      exact holds
  | cons item rest inductionHypothesis =>
      rw [List.foldlM_cons, bind_eq_ok] at ended
      obtain ⟨value, middle, first, later⟩ := ended
      refine inductionHypothesis
        (fun other member => kept other (List.mem_cons_of_mem _ member)) ?_ later
      exact kept item (List.mem_cons_self ..) start before other value middle holds first

/-- The same for a pass that hands on nothing but the state. -/
theorem forM_beside {τ : Type} {step : β -> EStateM ε σ PUnit} {next : τ -> β -> τ}
    {items : List β} (beside : σ -> τ -> Prop)
    (kept : forall item, item ∈ items -> forall before other after,
      beside before other -> step item before = .ok ⟨⟩ after -> beside after (next other item))
    {before after : σ} {other : τ} (holds : beside before other)
    (ended : items.forM step before = .ok ⟨⟩ after) :
    beside after (items.foldl next other) := by
  induction items generalizing before other with
  | nil =>
      obtain ⟨-, rfl⟩ := pure_eq_ok.1 ended
      exact holds
  | cons item rest inductionHypothesis =>
      obtain ⟨_, middle, first, later⟩ := bind_eq_ok.1 ended
      refine inductionHypothesis
        (fun other member => kept other (List.mem_cons_of_mem _ member)) ?_ later
      exact kept item (List.mem_cons_self ..) before other middle holds first

/-- What is known of a run that ended with a value, and of one that ended with a
fault. -/
def Ends (outcome : EStateM.Result ε σ α) (done : α -> σ -> Prop) (failed : ε -> σ -> Prop) :
    Prop :=
  match outcome with
  | .ok value after => done value after
  | .error fault after => failed fault after

/-- The state that a run leaves, however it ends. -/
def left : EStateM.Result ε σ α -> σ
  | .ok _ after | .error _ after => after

namespace Ends

variable {done : α -> σ -> Prop} {failed : ε -> σ -> Prop} {before : σ}

/-- Less may be said of a success. -/
theorem mono {outcome : EStateM.Result ε σ α} {other : α -> σ -> Prop}
    (ends : Ends outcome done failed)
    (weaker : forall value after, done value after -> other value after) :
    Ends outcome other failed := by
  cases outcome with
  | ok value after => exact weaker value after ends
  | error fault after => exact ends

/-- What follows from both endings holds of the state that is left. -/
theorem of_left {outcome : EStateM.Result ε σ α} {holds : σ -> Prop}
    (ends : Ends outcome done failed) (succeeds : forall value after, done value after -> holds after)
    (fails : forall fault after, failed fault after -> holds after) : holds (left outcome) := by
  cases outcome with
  | ok value after => exact succeeds value after ends
  | error fault after => exact fails fault after ends

/-- Two steps end one after the other as each of them ends. -/
theorem bind {step : EStateM ε σ α} {next : α -> EStateM ε σ β} {last : β -> σ -> Prop}
    (first : Ends (step before) done failed)
    (rest : forall value middle, done value middle -> Ends (next value middle) last failed) :
    Ends ((step >>= next) before) last failed := by
  show Ends (EStateM.bind step next before) last failed
  unfold EStateM.bind
  cases outcome : step before with
  | ok value middle =>
      rw [outcome] at first
      exact rest value middle first
  | error fault middle =>
      rw [outcome] at first
      exact first

/-- A step of which only success is possible hands its value on. -/
theorem bind_ok {step : EStateM ε σ α} {next : α -> EStateM ε σ β} {last : β -> σ -> Prop}
    {value : α} {middle : σ} (first : step before = .ok value middle)
    (rest : Ends (next value middle) last failed) :
    Ends ((step >>= next) before) last failed := by
  show Ends (EStateM.bind step next before) last failed
  unfold EStateM.bind
  rw [first]
  exact rest

/-- A step may begin by reading the state. -/
theorem bind_get {next : σ -> EStateM ε σ β} {last : β -> σ -> Prop}
    (rest : Ends (next before before) last failed) :
    Ends ((get >>= next) before) last failed :=
  rest

/-- A step may begin by changing the state. -/
theorem bind_modify {change : σ -> σ} {next : PUnit -> EStateM ε σ β}
    {last : β -> σ -> Prop} (rest : Ends (next ⟨⟩ (change before)) last failed) :
    Ends ((modify change >>= next) before) last failed :=
  rest

end Ends

end PhpTaint.Outcome
