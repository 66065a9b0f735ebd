import PhpTaint.Table
import PhpTaint.Taint.Record

/-!
# Dependencies

The dependencies of a value are the leaves that it may be drawn from, each with
its record, in the order in which they were first met. Merging the dependencies
of alternative or combined values joins the records of a common leaf and keeps
the place of its first occurrence.
-/

namespace PhpTaint

/-- The leaves of a value, by name. -/
abbrev Dependencies (δ : Type) := Table String (Record δ)

namespace Dependencies

variable {δ : Type}

/-- The dependencies on one leaf. -/
def single (name : String) (record : Record δ) : Dependencies δ := Table.empty.insert name record

/-- Add one record: a leaf that is already present is joined with it. -/
def absorb (merged : Dependencies δ) (name : String) (record : Record δ) : Dependencies δ :=
  match merged.find? name with
  | some existing => merged.insert name (existing.join record)
  | none => merged.insert name record

/-- Add all records of `added`. -/
def absorbAll (merged added : Dependencies δ) : Dependencies δ :=
  added.entries.foldl (fun current entry => absorb current entry.1 entry.2) merged

/-- The union of several dependencies, leaf by leaf. -/
def merge (parts : List (Dependencies δ)) : Dependencies δ := parts.foldl absorbAll ∅

/-- The union of two dependencies. -/
def mergeTwo (first second : Dependencies δ) : Dependencies δ := merge [first, second]

/-- The join of the levels of all leaves. -/
def level (dependencies : Dependencies δ) : Level :=
  Level.joinAll (dependencies.values.map Record.level)

/-- The sanitizers met on any flow. -/
def sanitizers (dependencies : Dependencies δ) : NameSet :=
  dependencies.values.foldl (fun names record => names ∪ record.sanitizers) ∅

/-- Taint and sanitizers of the value as a whole. -/
def summarize (dependencies : Dependencies δ) : Level × NameSet :=
  (dependencies.level, dependencies.sanitizers)

end Dependencies

end PhpTaint
