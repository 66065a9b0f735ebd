import PhpTaint.Proofs.Tandem
import PhpTaint.Taint.Dependencies

/-!
# Dependencies that resemble each other

Two records resemble each other when they differ in nothing but the definitions
they point to, and these are related. Merging looks at no definition, so merged
dependencies resemble each other if their parts do; a part without leaves may
stand among them on one side only.
-/

namespace PhpTaint

variable {δ ζ : Type}

/-- Two records that point to related definitions and are otherwise the same. -/
structure Record.Resembles (definitions : δ -> ζ -> Prop) (first : Record δ) (second : Record ζ) :
    Prop where
  name : second.name = first.name
  level : second.level = first.level
  sanitizers : second.sanitizers = first.sanitizers
  definition : Option.Rel definitions first.definition second.definition
  common : second.common = first.common
  revoked : second.revoked = first.revoked

namespace Record.Resembles

variable {definitions : δ -> ζ -> Prop} {first other : Record δ} {second another : Record ζ}

/-- Leaves of one name and one level that have related definitions resemble each other. -/
theorem leaf (name : String) (level : Level) {definition : Option δ} {image : Option ζ}
    (related : Option.Rel definitions definition image) :
    (Record.leaf name level definition).Resembles definitions (Record.leaf name level image) :=
  ⟨rfl, rfl, rfl, related, rfl, rfl⟩

/-- A leaf without a definition resembles itself. -/
theorem unassigned (name : String) :
    (Record.unassigned name : Record δ).Resembles definitions (Record.unassigned name) :=
  leaf name .unassigned .none

/-- Records that resemble each other do so at any other level. -/
theorem withLevel (resembles : first.Resembles definitions second) (level : Level) :
    { first with level := level }.Resembles definitions { second with level := level } :=
  ⟨resembles.name, rfl, resembles.sanitizers, resembles.definition, resembles.common,
    resembles.revoked⟩

/-- A sanitizer is added to both records or to neither. -/
theorem withSanitizer (resembles : first.Resembles definitions second) (sanitizer : String) :
    (first.withSanitizer sanitizer).Resembles definitions (second.withSanitizer sanitizer) :=
  ⟨resembles.name, resembles.level, by simp [Record.withSanitizer, resembles.sanitizers],
    resembles.definition, by simp [Record.withSanitizer, resembles.common], resembles.revoked⟩

/-- A sanitizer is taken away from both records. -/
theorem withoutSanitizer (resembles : first.Resembles definitions second) (sanitizer : String) :
    (first.withoutSanitizer sanitizer).Resembles definitions (second.withoutSanitizer sanitizer) :=
  ⟨resembles.name, resembles.level, by simp [Record.withoutSanitizer, resembles.sanitizers],
    resembles.definition, by simp [Record.withoutSanitizer, resembles.common],
    by simp [Record.withoutSanitizer, resembles.revoked]⟩

/-- Records that resemble each other pass through functions that do so. -/
theorem passedThrough (resembles : first.Resembles definitions second)
    (parameters : other.Resembles definitions another) :
    (first.passedThrough other).Resembles definitions (second.passedThrough another) :=
  ⟨resembles.name, resembles.level,
    by simp [Record.passedThrough, resembles.sanitizers, parameters.sanitizers, parameters.revoked],
    resembles.definition,
    by simp [Record.passedThrough, resembles.common, parameters.common, parameters.revoked],
    by simp [Record.passedThrough, resembles.revoked, parameters.revoked]⟩

/-- Joined records resemble each other if they do so one by one. -/
theorem join (resembles : first.Resembles definitions second)
    (others : other.Resembles definitions another) :
    (first.join other).Resembles definitions (second.join another) :=
  ⟨resembles.name, by simp [Record.join, resembles.level, others.level],
    by simp [Record.join, resembles.sanitizers, others.sanitizers], resembles.definition,
    by simp [Record.join, resembles.common, others.common],
    by simp [Record.join, resembles.revoked, others.revoked]⟩

end Record.Resembles

namespace Dependencies

/-- Two dependencies on the same leaves in the same order. -/
abbrev Resembles (definitions : δ -> ζ -> Prop) (first : Dependencies δ)
    (second : Dependencies ζ) : Prop :=
  Table.Resembles (Record.Resembles definitions) first second

/-- The parts of one value beside those of another: a part without leaves may
stand on the first side alone. -/
inductive PartsResemble (definitions : δ -> ζ -> Prop) :
    List (Dependencies δ) -> List (Dependencies ζ) -> Prop where
  | nil : PartsResemble definitions [] []
  | both {first : Dependencies δ} {second : Dependencies ζ} {parts : List (Dependencies δ)}
      {others : List (Dependencies ζ)} (related : Resembles definitions first second)
      (rest : PartsResemble definitions parts others) :
      PartsResemble definitions (first :: parts) (second :: others)
  | spare {parts : List (Dependencies δ)} {others : List (Dependencies ζ)}
      (rest : PartsResemble definitions parts others) :
      PartsResemble definitions (∅ :: parts) others

variable {definitions : δ -> ζ -> Prop} {first added : Dependencies δ}
  {second other : Dependencies ζ}

/-- Parts that resemble each other one by one resemble each other as parts of a value. -/
theorem PartsResemble.of_forall₂ {parts : List (Dependencies δ)} {others : List (Dependencies ζ)}
    (related : List.Forall₂ (Resembles definitions) parts others) :
    PartsResemble definitions parts others := by
  induction related with
  | nil => exact .nil
  | cons head _ inductionHypothesis => exact .both head inductionHypothesis

/-- A single leaf resembles another one as their records do. -/
theorem single_resembles (name : String) {record : Record δ} {image : Record ζ}
    (related : record.Resembles definitions image) :
    Resembles definitions (single name record) (single name image) :=
  Table.Resembles.empty.insert name related

/-- Records that resemble each other are absorbed alike. -/
theorem absorb_resembles (resembles : Resembles definitions first second) (name : String)
    {record : Record δ} {image : Record ζ} (related : record.Resembles definitions image) :
    Resembles definitions (absorb first name record) (absorb second name image) := by
  unfold absorb
  have found := resembles.find? name
  generalize first.find? name = left at found
  generalize second.find? name = right at found
  cases found with
  | none => exact resembles.insert name related
  | some existing => exact resembles.insert name (existing.join related)

/-- Dependencies that resemble each other are absorbed alike. -/
theorem absorbAll_resembles (resembles : Resembles definitions first second)
    (others : Resembles definitions added other) :
    Resembles definitions (absorbAll first added) (absorbAll second other) := by
  have entries : List.Forall₂ _ added.entries other.entries := others
  unfold absorbAll
  generalize added.entries = left at entries
  generalize other.entries = right at entries
  induction entries generalizing first second with
  | nil => exact resembles
  | @cons entry image _ _ related _ inductionHypothesis =>
      rw [List.foldl_cons, List.foldl_cons, ← related.1]
      exact inductionHypothesis (absorb_resembles resembles entry.1 related.2)

/-- Merged parts resemble each other, since a part without leaves adds nothing. -/
theorem merge_resembles {parts : List (Dependencies δ)} {others : List (Dependencies ζ)}
    (related : PartsResemble definitions parts others) :
    Resembles definitions (merge parts) (merge others) := by
  have grown : forall merged image, Resembles definitions merged image ->
      Resembles definitions (parts.foldl absorbAll merged) (others.foldl absorbAll image) := by
    induction related with
    | nil => exact fun _ _ start => start
    | both related _ inductionHypothesis =>
        exact fun _ _ start => inductionHypothesis _ _ (absorbAll_resembles start related)
    | spare _ inductionHypothesis => exact inductionHypothesis
  exact grown ∅ ∅ .empty

/-- Two parts are merged alike on both sides. -/
theorem mergeTwo_resembles (resembles : Resembles definitions first second)
    (others : Resembles definitions added other) :
    Resembles definitions (mergeTwo first added) (mergeTwo second other) :=
  merge_resembles (.both resembles (.both others .nil))

/-- What a value as a whole carries does not depend on definitions. -/
theorem sanitizers_of_resembles (resembles : Resembles definitions first second) :
    second.sanitizers = first.sanitizers := by
  have values := resembles.values_forall₂
  unfold sanitizers
  generalize (∅ : NameSet) = start
  generalize first.values = left at values
  generalize second.values = right at values
  induction values generalizing start with
  | nil => rfl
  | cons related _ inductionHypothesis =>
      rw [List.foldl_cons, List.foldl_cons, related.sanitizers]
      exact inductionHypothesis _

end Dependencies

end PhpTaint
