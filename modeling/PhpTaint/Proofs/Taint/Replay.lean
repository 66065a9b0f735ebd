import Mathlib.Data.List.Induction
import PhpTaint.Proofs.Taint.Gathering

/-!
# Replaying the steps of a parameter

While a function is summarized, the record of a parameter meets sanitizers and functions
that undo them, in some order. The record keeps two sets of names in place of that order:
what is added at the end, and what was undone at some time. This is enough: passing an
argument through the record is to perform the steps on the argument, whatever the argument
comes with. Records of parameters can be passed through each other first, so a chain of
functions acts on an argument as one function does.
-/

namespace PhpTaint

variable {δ : Type}

/-- What a call on the way of a flow does to the sanitizers of its record. -/
inductive SanitizerStep where
  /-- A sanitizer. -/
  | applied (sanitizer : String)
  /-- A function that undoes a sanitizer. -/
  | undone (sanitizer : String)
  deriving DecidableEq

namespace SanitizerStep

/-- The sanitizer of a step. -/
def sanitizer : SanitizerStep -> String
  | .applied sanitizer | .undone sanitizer => sanitizer

/-- The record after a step. -/
def act : SanitizerStep -> Record δ -> Record δ
  | .applied sanitizer, record => record.withSanitizer sanitizer
  | .undone sanitizer, record => record.withoutSanitizer sanitizer

/-- A step is what passing through a record of that step alone does. -/
theorem act_eq (step : SanitizerStep) (record : Record δ) :
    step.act record = record.passedThrough (step.act Record.idle) := by
  cases step with
  | applied sanitizer => exact record.withSanitizer_eq sanitizer
  | undone sanitizer => exact record.withoutSanitizer_eq sanitizer

/-- A step after a parameter was passed is a step on the parameter. -/
theorem act_passedThrough (step : SanitizerStep) (argument parameter : Record δ) :
    step.act (argument.passedThrough parameter) = argument.passedThrough (step.act parameter) := by
  rw [act_eq, Record.passedThrough_passedThrough, ← act_eq]

theorem mem_sanitizers_act (step : SanitizerStep) (record : Record δ) (name : String) :
    name ∈ (step.act record).sanitizers ↔
      if step.sanitizer = name then step = .applied name else name ∈ record.sanitizers := by
  cases step with
  | applied sanitizer =>
      show name ∈ record.sanitizers.insert sanitizer ↔ if sanitizer = name then _ else _
      rw [NameSet.mem_insert]
      split
      · rename_i same
        simp [same]
      · rename_i other
        simp [Ne.symm other]
  | undone sanitizer =>
      show name ∈ record.sanitizers.erase sanitizer ↔ if sanitizer = name then _ else _
      rw [NameSet.mem_erase]
      split
      · rename_i same
        simp [same]
      · rename_i other
        simp [Ne.symm other]

theorem mem_revoked_act (step : SanitizerStep) (record : Record δ) (name : String) :
    name ∈ (step.act record).revoked ↔ name ∈ record.revoked ∨ step = .undone name := by
  cases step with
  | applied sanitizer => simp [act, Record.withSanitizer]
  | undone sanitizer => simp [act, Record.withoutSanitizer, or_comm, eq_comm]

end SanitizerStep

namespace Record

/-- The record after some steps. -/
def replay (record : Record δ) (steps : List SanitizerStep) : Record δ :=
  steps.foldl (fun current step => step.act current) record

@[simp] theorem replay_nil (record : Record δ) : record.replay [] = record := rfl

@[simp] theorem replay_cons (record : Record δ) (step : SanitizerStep)
    (steps : List SanitizerStep) : record.replay (step :: steps) = (step.act record).replay steps :=
  rfl

theorem replay_append (record : Record δ) (first second : List SanitizerStep) :
    record.replay (first ++ second) = (record.replay first).replay second :=
  List.foldl_append

/-- Steps after a parameter was passed are steps on the parameter. -/
theorem replay_passedThrough (argument parameter : Record δ) (steps : List SanitizerStep) :
    (argument.passedThrough parameter).replay steps =
      argument.passedThrough (parameter.replay steps) := by
  induction steps generalizing parameter with
  | nil => rfl
  | cons step rest inductionHypothesis =>
      rw [replay_cons, step.act_passedThrough, inductionHypothesis, replay_cons]

/-- The sanitizers after some steps: the last step that concerns a sanitizer decides. -/
theorem mem_sanitizers_replay (record : Record δ) (steps : List SanitizerStep) (name : String) :
    name ∈ (record.replay steps).sanitizers ↔
      match (steps.filter fun step => decide (step.sanitizer = name)).getLast? with
      | some last => last = .applied name
      | none => name ∈ record.sanitizers := by
  induction steps using List.reverseRecOn with
  | nil => rfl
  | append_singleton steps step inductionHypothesis =>
      rw [replay_append, replay_cons, replay_nil, step.mem_sanitizers_act, List.filter_append]
      by_cases concerned : step.sanitizer = name
      · simp [concerned]
      · simp [concerned, inductionHypothesis]

/-- What steps undo is kept, also when it is added again. -/
theorem mem_revoked_replay (record : Record δ) (steps : List SanitizerStep) (name : String) :
    name ∈ (record.replay steps).revoked ↔ name ∈ record.revoked ∨ .undone name ∈ steps := by
  induction steps generalizing record with
  | nil => simp
  | cons step rest inductionHypothesis =>
      rw [replay_cons, inductionHypothesis, step.mem_revoked_act, List.mem_cons, or_assoc,
        eq_comm]

/-- An argument that is passed for a parameter arrives as if the steps of the parameter had
been performed on it, in their order. Being passed for one parameter and then for another is
being passed for one parameter, so a chain of functions acts as a single one. -/
theorem passedThrough_replay :
    (forall (argument : Record δ) (name : String) (steps : List SanitizerStep),
      argument.passedThrough ((unassigned name).replay steps) = argument.replay steps) ∧
    (forall argument first second : Record δ,
      (argument.passedThrough first).passedThrough second =
        argument.passedThrough (first.passedThrough second)) ∧
    forall (argument first : Record δ) (rest : List (Record δ)),
      (first :: rest).foldl passedThrough argument =
        argument.passedThrough (rest.foldl passedThrough first) := by
  refine ⟨?_, passedThrough_passedThrough, ?_⟩
  · intro argument name steps
    rw [← replay_passedThrough, passedThrough_unassigned]
  · intro argument first rest
    rw [List.foldl_cons]
    induction rest generalizing first with
    | nil => rfl
    | cons second rest inductionHypothesis =>
        rw [List.foldl_cons, passedThrough_passedThrough, inductionHypothesis, List.foldl_cons]

end Record

end PhpTaint
