/-!
# Finite sets of names

A `NameSet` is held as its members in strictly increasing code-point order.
The order serves two purposes at once: listings of a set are already in the
order every answer uses, and two sets with the same members are equal as
values, so the algebra of taint records is stated with plain equality.
-/

namespace PhpTaint

/-- A finite set of names, stored as its strictly increasing list of members. -/
structure NameSet where
  /-- The members in increasing code-point order. -/
  toList : List String
  /-- Members strictly increase, so none is repeated. -/
  increasing : toList.Pairwise (· < ·)

namespace NameSet

instance : Repr NameSet where
  reprPrec names prec := reprPrec names.toList prec

instance : Membership String NameSet where
  mem names name := name ∈ names.toList

instance (name : String) (names : NameSet) : Decidable (name ∈ names) :=
  inferInstanceAs (Decidable (name ∈ names.toList))

/-- The set without members. -/
def empty : NameSet := ⟨[], List.Pairwise.nil⟩

instance : EmptyCollection NameSet := ⟨empty⟩

instance : Inhabited NameSet := ⟨empty⟩

@[simp] theorem not_mem_empty (name : String) : ¬ name ∈ (∅ : NameSet) := by
  intro member
  cases member

/-- Insert a name at its place in an increasing list; a name that is already
there is left alone. -/
def insertInto (name : String) : List String -> List String
  | [] => [name]
  | head :: rest =>
      if name < head then name :: head :: rest
      else if name = head then head :: rest
      else head :: insertInto name rest

/-- Inserting a name adds it to the members and no other. -/
theorem mem_insertInto {candidate name : String} {names : List String} :
    candidate ∈ insertInto name names ↔ candidate = name ∨ candidate ∈ names := by
  induction names with
  | nil => simp [insertInto]
  | cons head rest inductionHypothesis =>
      simp only [insertInto]
      split
      · simp
      · split
        · rename_i equal
          subst equal
          simp
        · simp only [List.mem_cons, inductionHypothesis]
          constructor
          · rintro (equal | equal | member)
            · exact Or.inr (Or.inl equal)
            · exact Or.inl equal
            · exact Or.inr (Or.inr member)
          · rintro (equal | equal | member)
            · exact Or.inr (Or.inl equal)
            · exact Or.inl equal
            · exact Or.inr (Or.inr member)

/-- Inserting a name keeps the members in order. -/
theorem insertInto_increasing (name : String) {names : List String}
    (increasing : names.Pairwise (· < ·)) : (insertInto name names).Pairwise (· < ·) := by
  induction names with
  | nil => simp [insertInto]
  | cons head rest inductionHypothesis =>
      rw [List.pairwise_cons] at increasing
      simp only [insertInto]
      split
      · rename_i below
        refine List.pairwise_cons.2 ⟨?_, List.pairwise_cons.2 increasing⟩
        intro other member
        rcases List.mem_cons.1 member with equal | later
        · exact equal ▸ below
        · exact String.lt_trans below (increasing.1 other later)
      · rename_i notBelow
        split
        · exact List.pairwise_cons.2 increasing
        · rename_i different
          refine List.pairwise_cons.2 ⟨?_, inductionHypothesis increasing.2⟩
          intro other member
          rcases mem_insertInto.1 member with equal | later
          · subst equal
            apply Classical.byContradiction
            intro notAbove
            exact different (String.le_antisymm notAbove notBelow)
          · exact increasing.1 other later

/-- Add one name. -/
def insert (names : NameSet) (name : String) : NameSet :=
  ⟨insertInto name names.toList, insertInto_increasing name names.increasing⟩

/-- Keep the names that satisfy `keep`. -/
def filter (names : NameSet) (keep : String -> Bool) : NameSet :=
  ⟨names.toList.filter keep, names.increasing.filter keep⟩

/-- Remove one name; removing an absent name changes nothing. -/
def erase (names : NameSet) (name : String) : NameSet :=
  names.filter fun candidate => decide (candidate ≠ name)

/-- The names of either set. -/
def union (left right : NameSet) : NameSet := right.toList.foldl insert left

/-- The names of both sets. -/
def inter (left right : NameSet) : NameSet :=
  left.filter fun candidate => decide (candidate ∈ right)

/-- The names of `left` that are not in `right`. -/
def diff (left right : NameSet) : NameSet :=
  left.filter fun candidate => decide (¬ candidate ∈ right)

instance : Union NameSet := ⟨union⟩

instance : Inter NameSet := ⟨inter⟩

instance : SDiff NameSet := ⟨diff⟩

/-- The set of the given names. -/
def ofList (names : List String) : NameSet := names.foldl insert ∅

@[simp] theorem mem_insert {candidate name : String} {names : NameSet} :
    candidate ∈ names.insert name ↔ candidate = name ∨ candidate ∈ names :=
  mem_insertInto

@[simp] theorem mem_filter {candidate : String} {names : NameSet} {keep : String -> Bool} :
    candidate ∈ names.filter keep ↔ candidate ∈ names ∧ keep candidate = true :=
  List.mem_filter

@[simp] theorem mem_erase {candidate name : String} {names : NameSet} :
    candidate ∈ names.erase name ↔ candidate ∈ names ∧ candidate ≠ name := by
  simp [erase]

/-- Inserting names one by one adds them all. -/
theorem mem_foldl_insert {candidate : String} {names : NameSet} {added : List String} :
    candidate ∈ added.foldl insert names ↔ candidate ∈ names ∨ candidate ∈ added := by
  induction added generalizing names with
  | nil => simp
  | cons head rest inductionHypothesis =>
      simp only [List.foldl_cons, inductionHypothesis, mem_insert, List.mem_cons]
      constructor
      · rintro ((equal | member) | later)
        · exact Or.inr (Or.inl equal)
        · exact Or.inl member
        · exact Or.inr (Or.inr later)
      · rintro (member | equal | later)
        · exact Or.inl (Or.inr member)
        · exact Or.inl (Or.inl equal)
        · exact Or.inr later

@[simp] theorem mem_union {candidate : String} {left right : NameSet} :
    candidate ∈ left ∪ right ↔ candidate ∈ left ∨ candidate ∈ right :=
  mem_foldl_insert

@[simp] theorem mem_inter {candidate : String} {left right : NameSet} :
    candidate ∈ left ∩ right ↔ candidate ∈ left ∧ candidate ∈ right := by
  show candidate ∈ inter left right ↔ _
  simp [inter]

@[simp] theorem mem_sdiff {candidate : String} {left right : NameSet} :
    candidate ∈ left \ right ↔ candidate ∈ left ∧ ¬ candidate ∈ right := by
  show candidate ∈ diff left right ↔ _
  simp [diff]

@[simp] theorem mem_ofList {candidate : String} {names : List String} :
    candidate ∈ ofList names ↔ candidate ∈ names := by
  simp [ofList, mem_foldl_insert]

/-- Two increasing lists with the same members are the same list. -/
theorem eq_of_increasing {left right : List String} (leftIncreasing : left.Pairwise (· < ·))
    (rightIncreasing : right.Pairwise (· < ·))
    (sameMembers : forall name, name ∈ left ↔ name ∈ right) : left = right := by
  induction left generalizing right with
  | nil =>
      cases right with
      | nil => rfl
      | cons head rest => exact absurd ((sameMembers head).2 (by simp)) (by simp)
  | cons leftHead leftRest inductionHypothesis =>
      cases right with
      | nil => exact absurd ((sameMembers leftHead).1 (by simp)) (by simp)
      | cons rightHead rightRest =>
          rw [List.pairwise_cons] at leftIncreasing rightIncreasing
          have heads : leftHead = rightHead := by
            rcases List.mem_cons.1 ((sameMembers leftHead).1 (by simp)) with equal | later
            · exact equal
            · rcases List.mem_cons.1 ((sameMembers rightHead).2 (by simp)) with equal | earlier
              · exact equal.symm
              · exact absurd (rightIncreasing.1 leftHead later)
                  (String.lt_asymm (leftIncreasing.1 rightHead earlier))
          subst heads
          refine congrArg (leftHead :: ·) ?_
          refine inductionHypothesis leftIncreasing.2 rightIncreasing.2 ?_
          intro name
          constructor
          · intro member
            rcases List.mem_cons.1 ((sameMembers name).1 (List.mem_cons_of_mem _ member)) with
              equal | later
            · exact absurd (equal ▸ leftIncreasing.1 name member) (String.lt_irrefl _)
            · exact later
          · intro member
            rcases List.mem_cons.1 ((sameMembers name).2 (List.mem_cons_of_mem _ member)) with
              equal | later
            · exact absurd (equal ▸ rightIncreasing.1 name member) (String.lt_irrefl _)
            · exact later

/-- Sets with the same members are equal. -/
@[ext] theorem ext {left right : NameSet} (sameMembers : forall name, name ∈ left ↔ name ∈ right) :
    left = right := by
  obtain ⟨leftList, leftIncreasing⟩ := left
  obtain ⟨rightList, rightIncreasing⟩ := right
  have lists : leftList = rightList :=
    eq_of_increasing leftIncreasing rightIncreasing sameMembers
  subst lists
  rfl

instance : DecidableEq NameSet := fun left right =>
  decidable_of_iff (left.toList = right.toList)
    ⟨fun equal => by cases left; cases right; cases equal; rfl, fun equal => congrArg toList equal⟩

end NameSet

end PhpTaint
