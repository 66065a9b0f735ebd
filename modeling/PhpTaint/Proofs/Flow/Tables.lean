import PhpTaint.Flow.Call
import PhpTaint.Proofs.Table

/-!
# Tables of dependencies

The returns of a summary, the arguments of a call and the definitions that were
followed are tables of dependencies. What holds of all dependencies in such a
table, and of what is added, holds of all dependencies afterwards, if merging
keeps it.
-/

namespace PhpTaint.Flow

open Syntax

/-- All dependencies of a table are of some kind. -/
def Each {κ : Type} [DecidableEq κ] (holds : Deps -> Prop) (table : Table κ Deps) : Prop :=
  forall key deps, table.find? key = some deps -> holds deps

namespace Each

variable {κ : Type} [DecidableEq κ] {holds : Deps -> Prop} {table : Table κ Deps} {deps : Deps}

theorem empty : Each holds (∅ : Table κ Deps) := by
  rintro key deps ⟨⟩

theorem insert (each : Each holds table) (key : κ) (added : holds deps) :
    Each holds (table.insert key deps) := by
  intro other result found
  rw [Table.find?_insert] at found
  split at found
  · cases found
    exact added
  · exact each other result found

/-- Dependencies that are added to an entry, or make a new one. -/
theorem join (merges : forall left right, holds left -> holds right ->
      holds (Dependencies.mergeTwo left right))
    (each : Each holds table) (key : κ) (added : holds deps) :
    Each holds
      (match table.find? key with
      | some earlier => table.insert key (Dependencies.mergeTwo earlier deps)
      | none => table.insert key deps) := by
  split
  · rename_i earlier present
    exact each.insert key (merges _ _ (each key earlier present) added)
  · exact each.insert key added

section Calls

variable (merges : forall left right, holds left -> holds right ->
  holds (Dependencies.mergeTwo left right))

include merges

/-- One more return statement. -/
theorem addReturn {returns : Table Nat Deps} (lines : Each holds returns) (line : Nat)
    (added : holds deps) : Each holds (Summary.addReturn returns line deps) :=
  lines.join merges line added

/-- One more argument. -/
theorem bindName {arguments : Table String Deps} (passed : Each holds arguments)
    (parameter : String) (added : holds deps) : Each holds (bindName arguments parameter deps) :=
  passed.join merges parameter added

/-- An argument is bound to the parameters that its shape says. -/
theorem bind {summary : Summary} {bound : Bound} (passed : Each holds bound.arguments)
    (argument value : Node) (added : holds deps) :
    Each holds (bound.bind summary argument value deps).arguments := by
  unfold Bound.bind
  simp only
  split
  · exact passed.bindName merges _ added
  · split
    · have all : forall (names : List String) (arguments : Table String Deps),
          Each holds arguments -> Each holds
            (names.foldl (fun current parameter => Flow.bindName current parameter deps) arguments) := by
        intro names
        induction names with
        | nil => exact fun _ each => each
        | cons parameter rest inductionHypothesis =>
            exact fun _ each => inductionHypothesis _ (each.bindName merges parameter added)
      exact all _ _ passed
    · split
      · exact passed.bindName merges _ added
      · exact passed

end Calls

end Each

/-- What holds of every part of a returned value holds of the value of a call, if merging
keeps it. A part is an argument in the place of a parameter, passed through what is
recorded there, or a leaf that stays: any leaf that is no parameter, and a parameter of
which something else is known. -/
theorem substitute_holds {holds : Deps -> Prop} {summary : Summary} {arguments : Table String Deps}
    (merges : forall parts, (forall part, part ∈ parts -> holds part) ->
      holds (Dependencies.merge parts))
    (replaced : forall line deps name record, summary.returns.find? line = some deps ->
      deps.find? name = some record -> summary.parameterNames.contains name = true ->
        holds (((arguments.find? name).getD ∅).mapValues fun leaf => leaf.passedThrough record))
    (stays : forall line deps name record, summary.returns.find? line = some deps ->
      deps.find? name = some record ->
        (summary.parameterNames.contains name = true -> record.level ≠ .unassigned) ->
          holds (Dependencies.single name record)) :
    holds (substitute summary arguments) := by
  refine merges _ fun part member => ?_
  obtain ⟨deps, listed, inLine⟩ := List.mem_flatMap.1 member
  obtain ⟨line, inTable, rfl⟩ := List.mem_map.1 listed
  obtain ⟨⟨name, record⟩, entry, becomes⟩ := List.mem_flatMap.1 inLine
  have returned := Table.find?_eq_some_of_mem inTable
  have found := Table.find?_eq_some_of_mem entry
  unfold substituteLeaf at becomes
  simp only at becomes
  split at becomes
  · rename_i isParameter
    have argument := replaced line.1 line.2 name record returned found isParameter
    split at becomes
    · cases List.mem_singleton.1 becomes
      exact argument
    · rename_i known
      rcases List.mem_cons.1 becomes with rfl | later
      · exact argument
      · cases List.mem_singleton.1 later
        exact stays line.1 line.2 name record returned found fun _ => known
  · rename_i notParameter
    cases List.mem_singleton.1 becomes
    exact stays line.1 line.2 name record returned found fun isParameter =>
      absurd isParameter notParameter

end PhpTaint.Flow
