/-!
# Insertion-ordered tables

`Table` is the one keyed container of this library. Its entries keep the order
in which their keys first arrived, and writing to a key that is already present
replaces the value without moving the entry. Every answer that lists a table
depends on exactly that order, so it is part of the type and no second ordering
is ever derived from hashing.

Distinctness of the keys is a field of the type. Every operation below
re-establishes it, so a reader of a table never has to ask which of two equal
keys is authoritative.
-/

namespace PhpTaint

/-- A finite map whose entries stand in order of first insertion. -/
structure Table (κ : Type) (α : Type) where
  /-- The entries, oldest key first. -/
  entries : List (κ × α)
  /-- No key occurs twice. -/
  keysDistinct : (entries.map Prod.fst).Nodup

namespace Table

variable {κ α β : Type}

/-- Tables are equal exactly when their entry lists are; the distinctness proof
carries no identity. -/
@[ext] theorem ext {left right : Table κ α} (entries : left.entries = right.entries) :
    left = right := by
  cases left; cases right; cases entries; rfl

instance [Repr κ] [Repr α] : Repr (Table κ α) where
  reprPrec table prec := reprPrec table.entries prec

instance [DecidableEq κ] [DecidableEq α] : DecidableEq (Table κ α) := fun left right =>
  decidable_of_iff (left.entries = right.entries) ⟨ext, fun equal => congrArg entries equal⟩

/-- The table without entries. -/
def empty : Table κ α := ⟨[], List.nodup_nil⟩

instance : EmptyCollection (Table κ α) := ⟨empty⟩

instance : Inhabited (Table κ α) := ⟨empty⟩

/-- The keys in order of first insertion. -/
def keys (table : Table κ α) : List κ := table.entries.map Prod.fst

/-- The values, in the order of their keys. -/
def values (table : Table κ α) : List α := table.entries.map Prod.snd

/-- The number of entries. -/
def size (table : Table κ α) : Nat := table.entries.length

/-- A table is distinct in its keys, read through `keys`. -/
theorem keys_nodup (table : Table κ α) : table.keys.Nodup := table.keysDistinct

section Keyed

variable [DecidableEq κ]

/-- The value stored under `key` in an entry list: the first match wins. -/
def lookupEntry (key : κ) : List (κ × α) -> Option α
  | [] => none
  | (candidate, value) :: rest => if candidate = key then some value else lookupEntry key rest

/-- Write `value` under `key`: in place when the key is present, at the end
when it is new. -/
def placeEntry (key : κ) (value : α) : List (κ × α) -> List (κ × α)
  | [] => [(key, value)]
  | (candidate, old) :: rest =>
      if candidate = key then (candidate, value) :: rest
      else (candidate, old) :: placeEntry key value rest

/-- Writing keeps the key order and appends a new key at the end. -/
theorem map_fst_placeEntry (key : κ) (value : α) (entries : List (κ × α)) :
    (placeEntry key value entries).map Prod.fst =
      if key ∈ entries.map Prod.fst then entries.map Prod.fst
      else entries.map Prod.fst ++ [key] := by
  induction entries with
  | nil => simp [placeEntry]
  | cons entry rest inductionHypothesis =>
      obtain ⟨candidate, old⟩ := entry
      by_cases same : candidate = key
      · simp [placeEntry, same]
      · have other : ¬ key = candidate := fun equal => same equal.symm
        by_cases later : key ∈ rest.map Prod.fst
        · simp [placeEntry, same, other, inductionHypothesis, later]
        · simp [placeEntry, same, other, inductionHypothesis, later]

/-- Writing one key keeps the keys distinct. -/
theorem nodup_placeEntry (key : κ) (value : α) {entries : List (κ × α)}
    (distinct : (entries.map Prod.fst).Nodup) :
    ((placeEntry key value entries).map Prod.fst).Nodup := by
  rw [map_fst_placeEntry]
  split
  · exact distinct
  · rename_i absent
    rw [List.nodup_append]
    refine ⟨distinct, by simp, ?_⟩
    intro present member added addedMember equal
    rw [List.mem_singleton] at addedMember
    exact absent (addedMember ▸ equal ▸ member)

/-- The value stored under `key`. -/
def find? (table : Table κ α) (key : κ) : Option α := lookupEntry key table.entries

/-- Whether `key` has an entry. -/
def contains (table : Table κ α) (key : κ) : Bool := (table.find? key).isSome

/-- Store `value` under `key`; an existing entry keeps its position. -/
def insert (table : Table κ α) (key : κ) (value : α) : Table κ α :=
  ⟨placeEntry key value table.entries, nodup_placeEntry key value table.keysDistinct⟩

/-- Store `value` under `key` unless the key already has an entry. -/
def insertIfNew (table : Table κ α) (key : κ) (value : α) : Table κ α :=
  if table.contains key then table else table.insert key value

/-- Insert the given entries from left to right. -/
def insertMany (table : Table κ α) (entries : List (κ × α)) : Table κ α :=
  entries.foldl (fun current entry => current.insert entry.1 entry.2) table

/-- The table that results from inserting the entries from left to right. -/
def ofList (entries : List (κ × α)) : Table κ α := empty.insertMany entries

@[simp] theorem find?_empty (key : κ) : (empty : Table κ α).find? key = none := rfl

/-- An insertion is visible under its own key. -/
@[simp] theorem find?_insert_self (table : Table κ α) (key : κ) (value : α) :
    (table.insert key value).find? key = some value := by
  obtain ⟨entries, distinct⟩ := table
  show lookupEntry key (placeEntry key value entries) = some value
  clear distinct
  induction entries with
  | nil => simp [placeEntry, lookupEntry]
  | cons entry rest inductionHypothesis =>
      obtain ⟨candidate, old⟩ := entry
      by_cases same : candidate = key
      · simp [placeEntry, lookupEntry, same]
      · simp [placeEntry, lookupEntry, same, inductionHypothesis]

/-- An insertion is invisible under every other key. -/
theorem find?_insert_of_ne (table : Table κ α) {key other : κ} (value : α)
    (different : other ≠ key) : (table.insert key value).find? other = table.find? other := by
  obtain ⟨entries, distinct⟩ := table
  show lookupEntry other (placeEntry key value entries) = lookupEntry other entries
  clear distinct
  induction entries with
  | nil => simp [placeEntry, lookupEntry, Ne.symm different]
  | cons entry rest inductionHypothesis =>
      obtain ⟨candidate, old⟩ := entry
      by_cases same : candidate = key
      · simp [placeEntry, lookupEntry, same, Ne.symm different]
      · simp [placeEntry, lookupEntry, same, inductionHypothesis]

/-- The keys after an insertion: unchanged, or one new key at the end. -/
theorem keys_insert (table : Table κ α) (key : κ) (value : α) :
    (table.insert key value).keys =
      if key ∈ table.keys then table.keys else table.keys ++ [key] :=
  map_fst_placeEntry key value table.entries

/-- A key has a value exactly when it is one of the keys. -/
theorem find?_isSome_iff (table : Table κ α) (key : κ) :
    (table.find? key).isSome = true ↔ key ∈ table.keys := by
  obtain ⟨entries, distinct⟩ := table
  show (lookupEntry key entries).isSome = true ↔ key ∈ entries.map Prod.fst
  clear distinct
  induction entries with
  | nil => simp [lookupEntry]
  | cons entry rest inductionHypothesis =>
      obtain ⟨candidate, old⟩ := entry
      by_cases same : candidate = key
      · simp [lookupEntry, same]
      · have other : ¬ key = candidate := fun equal => same equal.symm
        simp only [lookupEntry, same, if_false, List.map_cons, List.mem_cons, other, false_or]
        exact inductionHypothesis

end Keyed

/-- Transform every value; keys and their order stay. -/
def mapValues (table : Table κ α) (transform : α -> β) : Table κ β where
  entries := table.entries.map fun entry => (entry.1, transform entry.2)
  keysDistinct := by
    have same : (table.entries.map fun entry => (entry.1, transform entry.2)).map Prod.fst =
        table.entries.map Prod.fst := by
      simp [List.map_map, Function.comp_def]
    rw [same]
    exact table.keysDistinct

/-- Keep the entries that `keep` accepts, in their order. -/
def filter (table : Table κ α) (keep : κ -> α -> Bool) : Table κ α where
  entries := table.entries.filter fun entry => keep entry.1 entry.2
  keysDistinct :=
    (List.Sublist.map Prod.fst List.filter_sublist).nodup table.keysDistinct

/-- The keys are those of the transformed table. -/
@[simp] theorem keys_mapValues (table : Table κ α) (transform : α -> β) :
    (table.mapValues transform).keys = table.keys := by
  simp [mapValues, keys, List.map_map, Function.comp_def]

/-- Looking up a transformed table transforms the value that was there. -/
@[simp] theorem find?_mapValues [DecidableEq κ] (table : Table κ α) (transform : α -> β)
    (key : κ) : (table.mapValues transform).find? key = (table.find? key).map transform := by
  obtain ⟨entries, distinct⟩ := table
  show lookupEntry key (entries.map fun entry => (entry.1, transform entry.2)) =
    (lookupEntry key entries).map transform
  clear distinct
  induction entries with
  | nil => rfl
  | cons entry rest inductionHypothesis =>
      obtain ⟨candidate, old⟩ := entry
      by_cases same : candidate = key
      · simp [lookupEntry, same]
      · simp [lookupEntry, same, inductionHypothesis]

end Table

end PhpTaint
