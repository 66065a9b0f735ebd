import PhpTaint.Table

/-!
# Lookups in tables

What a lookup finds in a table after several insertions, and after some entries
were dropped.
-/

namespace PhpTaint.Table

variable {κ α : Type} [DecidableEq κ]

@[simp] theorem find?_emptyCollection (key : κ) : (∅ : Table κ α).find? key = none := rfl

theorem find?_insert (table : Table κ α) (key other : κ) (value : α) :
    (table.insert key value).find? other = if other = key then some value else table.find? other := by
  by_cases same : other = key
  · subst same
    simp
  · simp [same, find?_insert_of_ne table value same]

/-- Inserting only what is new keeps what was there. -/
theorem find?_insertIfNew (table : Table κ α) (key other : κ) (value : α) :
    (table.insertIfNew key value).find? other =
      (table.find? other).or (if other = key then some value else none) := by
  unfold insertIfNew contains
  by_cases same : other = key
  · subst same
    cases present : table.find? other with
    | some old => simp [present]
    | none => simp
  · rw [if_neg same, Option.or_none]
    split
    · rfl
    · exact find?_insert_of_ne table value same

theorem mem_keys_iff (table : Table κ α) (key : κ) :
    key ∈ table.keys ↔ ∃ value, table.find? key = some value := by
  rw [← find?_isSome_iff, Option.isSome_iff_exists]

/-- Insertions of values that their keys determine. -/
theorem find?_insertMany_map (table : Table κ α) (keys : List κ) (valueOf : κ -> α) (key : κ) :
    (table.insertMany (keys.map fun name => (name, valueOf name))).find? key =
      if key ∈ keys then some (valueOf key) else table.find? key := by
  induction keys generalizing table with
  | nil => simp [insertMany]
  | cons head rest inductionHypothesis =>
      have step : table.insertMany ((head :: rest).map fun name => (name, valueOf name)) =
          (table.insert head (valueOf head)).insertMany
            (rest.map fun name => (name, valueOf name)) := rfl
      rw [step, inductionHypothesis, find?_insert]
      by_cases later : key ∈ rest
      · simp [later]
      · by_cases same : key = head
        · subst same
          simp
        · simp [later, same]

/-- Dropping the entries of one key hides that key and nothing else. -/
theorem find?_filter_ne (table : Table κ α) (key other : κ) :
    (table.filter fun candidate _ => decide (candidate ≠ key)).find? other =
      if other = key then none else table.find? other := by
  obtain ⟨entries, distinct⟩ := table
  show lookupEntry other (entries.filter fun entry => decide (entry.1 ≠ key)) =
    if other = key then none else lookupEntry other entries
  clear distinct
  induction entries with
  | nil => simp [lookupEntry]
  | cons entry rest inductionHypothesis =>
      obtain ⟨candidate, value⟩ := entry
      by_cases dropped : candidate = key
      · rw [List.filter_cons_of_neg (by simp [dropped]), inductionHypothesis]
        by_cases same : other = key
        · simp [same]
        · have differs : ¬ candidate = other := fun equal => same (equal ▸ dropped)
          simp [same, lookupEntry, differs]
      · rw [List.filter_cons_of_pos (by simp [dropped]), lookupEntry, lookupEntry,
          inductionHypothesis]
        by_cases same : candidate = other
        · simp [same ▸ dropped, same]
        · simp [same]

/-- An entry is found under its key. -/
theorem find?_eq_some_of_mem {table : Table κ α} {entry : κ × α} (member : entry ∈ table.entries) :
    table.find? entry.1 = some entry.2 := by
  obtain ⟨entries, distinct⟩ := table
  show lookupEntry entry.1 entries = some entry.2
  induction entries with
  | nil => cases member
  | cons head rest inductionHypothesis =>
      obtain ⟨candidate, value⟩ := head
      rw [List.map_cons, List.nodup_cons] at distinct
      rcases List.mem_cons.1 member with rfl | later
      · simp [lookupEntry]
      · have other : ¬ candidate = entry.1 := fun same =>
          distinct.1 (List.mem_map.2 ⟨entry, later, same.symm⟩)
        rw [lookupEntry, if_neg other]
        exact inductionHypothesis distinct.2 later

/-- What is found under a key is an entry. -/
theorem mem_of_find?_eq_some {table : Table κ α} {key : κ} {value : α}
    (found : table.find? key = some value) : (key, value) ∈ table.entries := by
  obtain ⟨entries, distinct⟩ := table
  have looked : lookupEntry key entries = some value := found
  show (key, value) ∈ entries
  clear distinct found
  induction entries with
  | nil => cases looked
  | cons head rest inductionHypothesis =>
      obtain ⟨candidate, first⟩ := head
      rw [lookupEntry] at looked
      split at looked
      · rename_i same
        cases looked
        rw [same]
        exact List.mem_cons_self ..
      · exact List.mem_cons_of_mem _ (inductionHypothesis looked)

/-- The values are what is found under some key. -/
theorem mem_values_iff {table : Table κ α} {value : α} :
    value ∈ table.values ↔ ∃ key, table.find? key = some value := by
  constructor
  · intro member
    obtain ⟨entry, listed, rfl⟩ := List.mem_map.1 member
    exact ⟨entry.1, find?_eq_some_of_mem listed⟩
  · rintro ⟨key, found⟩
    exact List.mem_map.2 ⟨_, mem_of_find?_eq_some found, rfl⟩

theorem mem_keys_insertMany {table : Table κ α} {entries : List (κ × α)} {key : κ} :
    key ∈ (table.insertMany entries).keys ↔ key ∈ table.keys ∨ key ∈ entries.map Prod.fst := by
  induction entries generalizing table with
  | nil => simp [insertMany]
  | cons head rest inductionHypothesis =>
      have step : table.insertMany (head :: rest) =
          (table.insert head.1 head.2).insertMany rest := rfl
      rw [step, inductionHypothesis, mem_keys_iff, find?_insert, mem_keys_iff, List.map_cons,
        List.mem_cons]
      by_cases same : key = head.1
      · simp [same]
      · simp [same]

end PhpTaint.Table
