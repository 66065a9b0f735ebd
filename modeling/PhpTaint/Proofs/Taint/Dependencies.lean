import PhpTaint.Proofs.Table
import PhpTaint.Taint.Dependencies

/-!
# Merging dependencies

Merging into nothing changes nothing, so a merge may leave out what is empty and
a single part is its own merge. The leaves of a merge are the leaves of its
parts.
-/

namespace PhpTaint

namespace Table

variable {κ α : Type} [DecidableEq κ]

/-- A new key comes last. -/
theorem placeEntry_of_not_mem {key : κ} {value : α} {entries : List (κ × α)}
    (absent : key ∉ entries.map Prod.fst) :
    placeEntry key value entries = entries ++ [(key, value)] := by
  induction entries with
  | nil => rfl
  | cons entry rest inductionHypothesis =>
      obtain ⟨candidate, old⟩ := entry
      rw [List.map_cons, List.mem_cons, not_or] at absent
      rw [placeEntry, if_neg (fun same => absent.1 same.symm), inductionHypothesis absent.2]
      rfl

/-- New entries come after those that are there. -/
theorem entries_insertMany {table : Table κ α} {entries : List (κ × α)}
    (distinct : (table.keys ++ entries.map Prod.fst).Nodup) :
    (table.insertMany entries).entries = table.entries ++ entries := by
  induction entries generalizing table with
  | nil => simp [insertMany]
  | cons entry rest inductionHypothesis =>
      have fresh : entry.1 ∉ table.keys := by
        intro present
        exact (List.nodup_append.1 distinct).2.2 _ present _ (List.mem_cons_self ..) rfl
      have placed : (table.insert entry.1 entry.2).entries = table.entries ++ [entry] :=
        placeEntry_of_not_mem fresh
      have later : ((table.insert entry.1 entry.2).insertMany rest).entries =
          (table.insert entry.1 entry.2).entries ++ rest := by
        refine inductionHypothesis ?_
        rw [keys_insert, if_neg fresh, List.append_assoc]
        exact distinct
      rw [placed, List.append_assoc] at later
      exact later

/-- A key is not found exactly if it is no key of the table. -/
theorem find?_eq_none_iff (table : Table κ α) (key : κ) :
    table.find? key = none ↔ key ∉ table.keys := by
  rw [← find?_isSome_iff, Option.not_isSome_iff_eq_none]

end Table

namespace Dependencies

variable {δ : Type}

/-- A new leaf comes last. -/
theorem absorb_of_not_mem {merged : Dependencies δ} {name : String} {record : Record δ}
    (absent : name ∉ merged.keys) :
    (absorb merged name record).entries = merged.entries ++ [(name, record)] := by
  rw [absorb, (Table.find?_eq_none_iff merged name).2 absent]
  exact Table.placeEntry_of_not_mem absent

/-- Adding dependencies to nothing gives those dependencies. -/
theorem absorbAll_empty (added : Dependencies δ) : absorbAll ∅ added = added := by
  have grow : forall rest (done : Dependencies δ),
      ((done.entries ++ rest).map Prod.fst).Nodup ->
        (rest.foldl (fun current entry => absorb current entry.1 entry.2) done).entries =
          done.entries ++ rest := by
    intro rest
    induction rest with
    | nil =>
        intro done _
        rw [List.append_nil]
        rfl
    | cons entry rest inductionHypothesis =>
        intro done distinct
        have absent : entry.1 ∉ done.keys := by
          intro present
          rw [List.map_append, List.nodup_append] at distinct
          exact distinct.2.2 _ present _ (by simp) rfl
        have step : (absorb done entry.1 entry.2).entries = done.entries ++ [entry] :=
          absorb_of_not_mem absent
        rw [List.foldl_cons, inductionHypothesis]
        · rw [step, List.append_assoc, List.singleton_append]
        · rw [step, List.append_assoc, List.singleton_append]
          exact distinct
  exact Table.ext (grow added.entries ∅ added.keysDistinct)

@[simp] theorem merge_nil : merge ([] : List (Dependencies δ)) = ∅ := rfl

@[simp] theorem merge_singleton (part : Dependencies δ) : merge [part] = part :=
  absorbAll_empty part

/-- Merging two parts is merging a list of them. -/
theorem mergeTwo_eq (first second : Dependencies δ) : mergeTwo first second = merge [first, second] :=
  rfl

@[simp] theorem mergeTwo_empty_left (part : Dependencies δ) : mergeTwo ∅ part = part :=
  absorbAll_empty part

@[simp] theorem mergeTwo_empty_right (part : Dependencies δ) : mergeTwo part ∅ = part :=
  absorbAll_empty part

@[simp] theorem keys_empty : (∅ : Dependencies δ).keys = [] := rfl

@[simp] theorem keys_single (name : String) (record : Record δ) :
    (single name record).keys = [name] := rfl

/-- Absorbing a leaf adds it and no other. -/
theorem mem_keys_absorb {merged : Dependencies δ} {name leaf : String} {record : Record δ} :
    leaf ∈ (absorb merged name record).keys ↔ leaf ∈ merged.keys ∨ leaf = name := by
  unfold absorb
  split
  all_goals
    rw [Table.keys_insert]
    split
    · rename_i present
      constructor
      · exact Or.inl
      · rintro (member | rfl)
        · exact member
        · exact present
    · simp

/-- Absorbing dependencies adds their leaves and no others. -/
theorem mem_keys_absorbAll {merged added : Dependencies δ} {leaf : String} :
    leaf ∈ (absorbAll merged added).keys ↔ leaf ∈ merged.keys ∨ leaf ∈ added.keys := by
  obtain ⟨entries, distinct⟩ := added
  show leaf ∈ (entries.foldl _ merged).keys ↔ _ ∨ leaf ∈ entries.map Prod.fst
  clear distinct
  induction entries generalizing merged with
  | nil => simp
  | cons entry rest inductionHypothesis =>
      rw [List.foldl_cons, inductionHypothesis, mem_keys_absorb, List.map_cons, List.mem_cons,
        or_assoc]

/-- The leaves of a merge are the leaves of its parts. -/
theorem mem_keys_merge {parts : List (Dependencies δ)} {leaf : String} :
    leaf ∈ (merge parts).keys ↔ ∃ part, part ∈ parts ∧ leaf ∈ part.keys := by
  have grow : forall start : Dependencies δ, leaf ∈ (parts.foldl absorbAll start).keys ↔
      leaf ∈ start.keys ∨ ∃ part, part ∈ parts ∧ leaf ∈ part.keys := by
    induction parts with
    | nil => simp
    | cons part rest inductionHypothesis =>
        intro start
        rw [List.foldl_cons, inductionHypothesis, mem_keys_absorbAll, or_assoc]
        simp
  rw [merge, grow]
  simp

/-- All records are of some kind for their leaf. -/
def All (holds : String -> Record δ -> Prop) (deps : Dependencies δ) : Prop :=
  forall name record, deps.find? name = some record -> holds name record

namespace All

variable {holds : String -> Record δ -> Prop} {deps added : Dependencies δ} {name : String}
  {record : Record δ}

theorem empty : All holds ∅ := by
  rintro name record ⟨⟩

/-- A record that is put in keeps what holds of all records, if it holds of this one. -/
theorem insert (all : All holds deps) (given : holds name record) :
    All holds (deps.insert name record) := by
  intro leaf found listed
  rw [Table.find?_insert] at listed
  split at listed
  · rename_i same
    subst same
    cases listed
    exact given
  · exact all leaf found listed

theorem single (given : holds name record) : All holds (single name record) :=
  empty.insert given

/-- A change of all records keeps what it keeps of each. -/
theorem mapValues {change : Record δ -> Record δ} (all : All holds deps)
    (kept : forall name record, holds name record -> holds name (change record)) :
    All holds (deps.mapValues change) := by
  intro leaf found listed
  rw [Table.find?_mapValues] at listed
  obtain ⟨before, present, rfl⟩ := Option.map_eq_some_iff.1 listed
  exact kept leaf before (all leaf before present)

section Merging

variable (joins : forall name first second, holds name first -> holds name second ->
  holds name (first.join second))

include joins

/-- Absorbing a record keeps what merging two records keeps. -/
theorem absorb (all : All holds deps) (given : holds name record) :
    All holds (absorb deps name record) := by
  unfold Dependencies.absorb
  split
  · rename_i existing present
    exact all.insert (joins name existing record (all name existing present) given)
  · exact all.insert given

/-- Absorbing dependencies keeps what merging two records keeps. -/
theorem absorbAll (all : All holds deps) (others : All holds added) :
    All holds (absorbAll deps added) := by
  have grow : forall (entries : List (String × Record δ)) start, All holds start ->
      (forall entry, entry ∈ entries -> entry ∈ added.entries) ->
      All holds (entries.foldl (fun current entry =>
        Dependencies.absorb current entry.1 entry.2) start) := by
    intro entries
    induction entries with
    | nil => exact fun start all _ => all
    | cons entry rest inductionHypothesis =>
        intro start all listed
        have given := others entry.1 entry.2
          (Table.find?_eq_some_of_mem (listed entry (List.mem_cons_self ..)))
        exact inductionHypothesis _ (all.absorb joins given)
          fun other later => listed other (List.mem_cons_of_mem _ later)
  exact grow added.entries deps all fun _ listed => listed

/-- A merge holds records of a kind that joining keeps, if its parts do. -/
theorem merge {parts : List (Dependencies δ)}
    (each : forall part, part ∈ parts -> All holds part) : All holds (merge parts) := by
  have grow : forall start : Dependencies δ, All holds start ->
      All holds (parts.foldl Dependencies.absorbAll start) := by
    induction parts with
    | nil => exact fun start all => all
    | cons part rest inductionHypothesis =>
        intro start all
        have first := all.absorbAll joins (each part (List.mem_cons_self ..))
        exact inductionHypothesis (fun other later => each other (List.mem_cons_of_mem _ later)) _
          first
  exact grow ∅ empty

end Merging

end All

end Dependencies

end PhpTaint
