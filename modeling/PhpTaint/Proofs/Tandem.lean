import Mathlib.Data.List.Forall2
import PhpTaint.Proofs.Outcome
import PhpTaint.Proofs.Table

/-!
# Two runs side by side

`Tandem` relates two steps that start in related states: both end with related
values or both end with one fault, and in related states either way. The lemmas
take steps apart on both sides at once. Where one run passes over more items
than the other, the additional ones have to be steps that leave the states
related by themselves.
-/

namespace PhpTaint

variable {ε σ τ α β γ δ ι κ : Type}

/-- Two answers are related values or one and the same fault. -/
inductive SameAnswer (values : α -> β -> Prop) : Except ε α -> Except ε β -> Prop where
  /-- Both answer with a value. -/
  | ok {left : α} {right : β} (related : values left right) :
      SameAnswer values (.ok left) (.ok right)
  /-- Both answer with a fault. -/
  | error (fault : ε) : SameAnswer values (.error fault) (.error fault)

theorem SameAnswer.refl (answer : Except ε α) : SameAnswer Eq answer answer := by
  cases answer with
  | ok value => exact .ok rfl
  | error fault => exact .error fault

/-- Answers that are related go on to answers that are related. -/
theorem SameAnswer.bind {values : α -> β -> Prop} {results : γ -> δ -> Prop} {left : Except ε α}
    {right : Except ε β} {leftNext : α -> Except ε γ} {rightNext : β -> Except ε δ}
    (answer : SameAnswer values left right)
    (continues : forall first second, values first second ->
      SameAnswer results (leftNext first) (rightNext second)) :
    SameAnswer results (left >>= leftNext) (right >>= rightNext) := by
  cases answer with
  | ok related => exact continues _ _ related
  | error fault => exact .error fault

/-- Two runs end alike. -/
inductive EndAlike (states : σ -> τ -> Prop) (values : α -> β -> Prop) :
    EStateM.Result ε σ α -> EStateM.Result ε τ β -> Prop where
  /-- Both end with a value. -/
  | ok {left : α} {right : β} {first : σ} {second : τ} (related : values left right)
      (after : states first second) : EndAlike states values (.ok left first) (.ok right second)
  /-- Both end with a fault. -/
  | error (fault : ε) {first : σ} {second : τ} (after : states first second) :
      EndAlike states values (.error fault first) (.error fault second)

/-- From related states, two steps end alike. -/
def Tandem (states : σ -> τ -> Prop) (values : α -> β -> Prop) (left : EStateM ε σ α)
    (right : EStateM ε τ β) : Prop :=
  forall first second, states first second -> EndAlike states values (left first) (right second)

namespace Tandem

variable {states : σ -> τ -> Prop} {values : α -> β -> Prop} {results : γ -> δ -> Prop}

/-- Related values are answered in tandem. -/
theorem pure {left : α} {right : β} (related : values left right) :
    Tandem states values (pure left : EStateM ε σ α) (pure right) :=
  fun _ _ before => .ok related before

/-- The same fault ends both sides. -/
theorem throw (fault : ε) :
    Tandem states values (throw fault : EStateM ε σ α) (throw fault) :=
  fun _ _ before => .error fault before

/-- Related states are read in tandem. -/
theorem get : Tandem states states (get : EStateM ε σ σ) get := fun _ _ before => .ok before before

/-- A change that keeps states related is made in tandem. -/
theorem change {leftChange : σ -> σ} {rightChange : τ -> τ}
    (kept : forall first second, states first second ->
      states (leftChange first) (rightChange second)) :
    Tandem states Eq (modify leftChange : EStateM ε σ PUnit) (modify rightChange) :=
  fun _ _ before => .ok rfl (kept _ _ before)

/-- A change on one side only, after which the states are still related. -/
theorem change_left {leftChange : σ -> σ}
    (kept : forall first second, states first second -> states (leftChange first) second) :
    Tandem states Eq (modify leftChange : EStateM ε σ PUnit) (Pure.pure ⟨⟩) :=
  fun _ _ before => .ok rfl (kept _ _ before)

/-- Steps in tandem are followed by steps in tandem. -/
theorem bind {left : EStateM ε σ α} {right : EStateM ε τ β} {leftNext : α -> EStateM ε σ γ}
    {rightNext : β -> EStateM ε τ δ} (step : Tandem states values left right)
    (continues : forall first second, values first second ->
      Tandem states results (leftNext first) (rightNext second)) :
    Tandem states results (left >>= leftNext) (right >>= rightNext) := by
  intro first second before
  show EndAlike states results (EStateM.bind left leftNext first)
    (EStateM.bind right rightNext second)
  unfold EStateM.bind
  have ended := step first second before
  generalize left first = outcome at ended
  generalize right second = other at ended
  cases ended with
  | ok related after => exact continues _ _ related _ _ after
  | error fault after => exact .error fault after

/-- A step that changes nothing of note may come before the next one. -/
theorem bind_silent {left : EStateM ε σ α} {leftNext : α -> EStateM ε σ γ}
    {right : EStateM ε τ δ} {value : β}
    (step : Tandem states values left (Pure.pure value : EStateM ε τ β))
    (continues : forall first, values first value ->
      Tandem states results (leftNext first) right) :
    Tandem states results (left >>= leftNext) right := by
  intro first second before
  show EndAlike states results (EStateM.bind left leftNext first) (right second)
  unfold EStateM.bind
  have ended := step first second before
  generalize left first = outcome at ended
  cases ended with
  | ok related after => exact continues _ related _ _ after

/-- Steps with equal values. -/
theorem bind_eq {left : EStateM ε σ α} {right : EStateM ε τ α} {leftNext : α -> EStateM ε σ γ}
    {rightNext : α -> EStateM ε τ δ} (step : Tandem states Eq left right)
    (continues : forall value, Tandem states results (leftNext value) (rightNext value)) :
    Tandem states results (left >>= leftNext) (right >>= rightNext) :=
  step.bind fun value _ same => same ▸ continues value

/-- A choice by one condition is made in tandem. -/
theorem ite {condition : Prop} [Decidable condition] {left other : EStateM ε σ α}
    {right another : EStateM ε τ β} (chosen : condition -> Tandem states values left right)
    (otherwise : ¬ condition -> Tandem states values other another) :
    Tandem states values (if condition then left else other)
      (if condition then right else another) := by
  by_cases holds : condition
  · simpa only [if_pos holds] using chosen holds
  · simpa only [if_neg holds] using otherwise holds

/-- A pass over a list beside the pass over the items that are kept. -/
theorem foldlM_filter {items : List ι} {keep : ι -> Bool} {image : ι -> κ}
    {left : α -> ι -> EStateM ε σ α} {right : β -> κ -> EStateM ε τ β}
    (kept : forall item, item ∈ items -> keep item = true -> forall first second,
      values first second -> Tandem states values (left first item) (right second (image item)))
    (silent : forall item, item ∈ items -> keep item = false -> forall first second,
      values first second -> Tandem states values (left first item) (Pure.pure second))
    {first : α} {second : β} (start : values first second) :
    Tandem states values (items.foldlM left first)
      (((items.filter keep).map image).foldlM right second) := by
  induction items generalizing first second with
  | nil => exact pure start
  | cons item rest inductionHypothesis =>
      have later : forall {first : α} {second : β}, values first second ->
          Tandem states values (rest.foldlM left first)
            (((rest.filter keep).map image).foldlM right second) :=
        inductionHypothesis (fun other member => kept other (List.mem_cons_of_mem _ member))
          (fun other member => silent other (List.mem_cons_of_mem _ member))
      cases keeps : keep item with
      | true =>
          rw [List.filter_cons_of_pos keeps, List.map_cons, List.foldlM_cons, List.foldlM_cons]
          exact (kept item (List.mem_cons_self ..) keeps _ _ start).bind fun _ _ => later
      | false =>
          rw [List.filter_cons_of_neg (by simp [keeps]), List.foldlM_cons]
          exact (silent item (List.mem_cons_self ..) keeps _ _ start).bind_silent fun _ => later

/-- The same for a pass that hands on nothing but the state. -/
theorem forM_filter {items : List ι} {keep : ι -> Bool} {image : ι -> κ}
    {left : ι -> EStateM ε σ PUnit} {right : κ -> EStateM ε τ PUnit}
    (kept : forall item, item ∈ items -> keep item = true ->
      Tandem states Eq (left item) (right (image item)))
    (silent : forall item, item ∈ items -> keep item = false ->
      Tandem states Eq (left item) (Pure.pure ⟨⟩)) :
    Tandem states Eq (items.forM left) (((items.filter keep).map image).forM right) := by
  induction items with
  | nil => exact pure rfl
  | cons item rest inductionHypothesis =>
      have later := inductionHypothesis
        (fun other member => kept other (List.mem_cons_of_mem _ member))
        (fun other member => silent other (List.mem_cons_of_mem _ member))
      cases keeps : keep item with
      | true =>
          rw [List.filter_cons_of_pos keeps, List.map_cons]
          exact (kept item (List.mem_cons_self ..) keeps).bind fun _ _ _ => later
      | false =>
          rw [List.filter_cons_of_neg (by simp [keeps])]
          exact (silent item (List.mem_cons_self ..) keeps).bind_silent fun _ _ => later

/-- A pass over a list beside the pass over the images of its items. -/
theorem foldlM_map {items : List ι} {image : ι -> κ} {left : α -> ι -> EStateM ε σ α}
    {right : β -> κ -> EStateM ε τ β}
    (each : forall item, item ∈ items -> forall first second,
      values first second -> Tandem states values (left first item) (right second (image item)))
    {first : α} {second : β} (start : values first second) :
    Tandem states values (items.foldlM left first) ((items.map image).foldlM right second) := by
  induction items generalizing first second with
  | nil => exact pure start
  | cons item rest inductionHypothesis =>
      rw [List.map_cons, List.foldlM_cons, List.foldlM_cons]
      exact (each item (List.mem_cons_self ..) _ _ start).bind fun _ _ =>
        inductionHypothesis fun other member => each other (List.mem_cons_of_mem _ member)

/-- A list and its image are gone through in tandem. -/
theorem forM_map {items : List ι} {image : ι -> κ} {left : ι -> EStateM ε σ PUnit}
    {right : κ -> EStateM ε τ PUnit}
    (each : forall item, item ∈ items -> Tandem states Eq (left item) (right (image item))) :
    Tandem states Eq (items.forM left) ((items.map image).forM right) := by
  induction items with
  | nil => exact pure rfl
  | cons item rest inductionHypothesis =>
      exact (each item (List.mem_cons_self ..)).bind fun _ _ _ =>
        inductionHypothesis fun other member => each other (List.mem_cons_of_mem _ member)

theorem forM {items : List ι} {left : ι -> EStateM ε σ PUnit} {right : ι -> EStateM ε τ PUnit}
    (each : forall item, item ∈ items -> Tandem states Eq (left item) (right item)) :
    Tandem states Eq (items.forM left) (items.forM right) := by
  have mapped := @forM_map ε σ τ ι ι states items id left right each
  rwa [List.map_id] at mapped

end Tandem

/-- Runs that end in states of one relation end in states of every wider one. -/
theorem EndAlike.mono {states wider : σ -> τ -> Prop} {values : α -> β -> Prop}
    {left : EStateM.Result ε σ α} {right : EStateM.Result ε τ β}
    (ended : EndAlike states values left right)
    (widens : forall first second, states first second -> wider first second) :
    EndAlike wider values left right := by
  cases ended with
  | ok related after => exact .ok related (widens _ _ after)
  | error fault after => exact .error fault (widens _ _ after)

/-- Changes that bring two states into a closer relation may come before steps
that keep it. -/
theorem EndAlike.of_modify_bind {states closer : σ -> τ -> Prop} {values : α -> β -> Prop}
    {leftChange : σ -> σ} {rightChange : τ -> τ} {leftNext : PUnit -> EStateM ε σ α}
    {rightNext : PUnit -> EStateM ε τ β} {first : σ} {second : τ}
    (entered : closer (leftChange first) (rightChange second))
    (widens : forall first second, closer first second -> states first second)
    (continues : Tandem closer values (leftNext ⟨⟩) (rightNext ⟨⟩)) :
    EndAlike states values ((modify leftChange >>= leftNext) first)
      ((modify rightChange >>= rightNext) second) :=
  (continues _ _ entered).mono widens

namespace Table

/-- Two tables with the same keys in the same order and with related values. -/
def Resembles (values : α -> β -> Prop) (left : Table κ α) (right : Table κ β) : Prop :=
  List.Forall₂ (fun first second => first.1 = second.1 ∧ values first.2 second.2) left.entries
    right.entries

namespace Resembles

variable {values : α -> β -> Prop} {left : Table κ α} {right : Table κ β}

theorem empty : Resembles values (∅ : Table κ α) (∅ : Table κ β) := List.Forall₂.nil

/-- Tables that resemble each other list related values. -/
theorem values_forall₂ (resembles : Resembles values left right) :
    List.Forall₂ values left.values right.values := by
  unfold Table.values
  rw [List.forall₂_map_left_iff, List.forall₂_map_right_iff]
  exact List.Forall₂.imp (fun _ _ related => related.2) resembles

/-- A change of all values that keeps them related keeps tables alike. -/
theorem mapValues {results : γ -> δ -> Prop} (resembles : Resembles values left right)
    {leftChange : α -> γ} {rightChange : β -> δ}
    (each : forall first second, values first second ->
      results (leftChange first) (rightChange second)) :
    Resembles results (left.mapValues leftChange) (right.mapValues rightChange) := by
  unfold Resembles Table.mapValues
  rw [List.forall₂_map_left_iff, List.forall₂_map_right_iff]
  exact List.Forall₂.imp (fun _ _ related => ⟨related.1, each _ _ related.2⟩) resembles

variable [DecidableEq κ]

/-- A key leads to related values, or to none on either side. -/
theorem find? (resembles : Resembles values left right) (key : κ) :
    Option.Rel values (left.find? key) (right.find? key) := by
  have pairs : List.Forall₂ (fun first second => first.1 = second.1 ∧ values first.2 second.2)
    left.entries right.entries := resembles
  unfold Table.find?
  generalize left.entries = first at pairs
  generalize right.entries = second at pairs
  induction pairs with
  | nil => exact .none
  | cons related _ inductionHypothesis =>
      rw [lookupEntry, lookupEntry, ← related.1]
      split
      · exact .some related.2
      · exact inductionHypothesis

theorem contains (resembles : Resembles values left right) (key : κ) :
    right.contains key = left.contains key := by
  have found := resembles.find? key
  unfold Table.contains
  generalize left.find? key = first at found
  generalize right.find? key = second at found
  cases found with
  | some => rfl
  | none => rfl

/-- Related values under one key keep tables alike. -/
theorem insert (resembles : Resembles values left right) (key : κ) {first : α} {second : β}
    (related : values first second) :
    Resembles values (left.insert key first) (right.insert key second) := by
  have pairs : List.Forall₂ (fun first second => first.1 = second.1 ∧ values first.2 second.2)
    left.entries right.entries := resembles
  show List.Forall₂ _ (placeEntry key first left.entries) (placeEntry key second right.entries)
  generalize left.entries = entries at pairs
  generalize right.entries = others at pairs
  induction pairs with
  | nil => exact .cons ⟨rfl, related⟩ .nil
  | cons entry rest inductionHypothesis =>
      rw [placeEntry, placeEntry, ← entry.1]
      split
      · exact .cons ⟨rfl, related⟩ rest
      · exact .cons ⟨rfl, entry.2⟩ inductionHypothesis

end Resembles

end Table

end PhpTaint
