import PhpTaint.Taint.Dependencies

/-!
# Shared records

Several dependency maps may refer to one and the same record, so that a later
change of its level shows through all of them. A `Ledger` holds the records and
hands out references; a shared map is a table of references. Merging shared maps
writes a new record only for a leaf that occurs in more than one of them, and it
never touches a record that is already in the ledger. A map may also hold
references that no record stands behind: such a map can be passed on, but its
dependencies cannot be read and the leaf cannot be joined.
-/

namespace PhpTaint

/-- Records that are referred to by their position. -/
structure Ledger (δ : Type) where
  /-- The records, in order of creation. -/
  records : Array (Record δ)

/-- A reference to a record of a ledger. -/
abbrev RecordRef := Nat

/-- A dependency map whose records are shared through a ledger. -/
abbrev SharedDependencies := Table String RecordRef

namespace Ledger

variable {δ : Type}

/-- The ledger without records. -/
def empty : Ledger δ := ⟨#[]⟩

/-- The record behind a reference. -/
def get? (ledger : Ledger δ) (ref : RecordRef) : Option (Record δ) := ledger.records[ref]?

/-- Write a new record. -/
def add (ledger : Ledger δ) (record : Record δ) : RecordRef × Ledger δ :=
  (ledger.records.size, ⟨ledger.records.push record⟩)

/-- Change the level of a record in place. -/
def setLevel (ledger : Ledger δ) (ref : RecordRef) (level : Level) : Ledger δ :=
  ⟨ledger.records.modify ref fun record => { record with level := level }⟩

/-- Add a reference to a shared map: a leaf that is already present gets a new
record that joins both. -/
def absorb? (state : SharedDependencies × Ledger δ) (entry : String × RecordRef) :
    Option (SharedDependencies × Ledger δ) := do
  let (merged, ledger) := state
  match merged.find? entry.1 with
  | none => return (merged.insert entry.1 entry.2, ledger)
  | some existing =>
      let (joined, extended) := ledger.add ((← ledger.get? existing).join (← ledger.get? entry.2))
      return (merged.insert entry.1 joined, extended)

/-- Merge shared maps from left to right. -/
def merge? (ledger : Ledger δ) (maps : List SharedDependencies) :
    Option (SharedDependencies × Ledger δ) :=
  maps.foldlM (fun state map => map.entries.foldlM absorb? state) (∅, ledger)

/-- The dependencies that a shared map stands for at this moment. -/
def read? (ledger : Ledger δ) (map : SharedDependencies) : Option (Dependencies δ) :=
  map.entries.foldlM
    (fun result entry => do return result.insert entry.1 (← ledger.get? entry.2))
    ∅

end Ledger

end PhpTaint
