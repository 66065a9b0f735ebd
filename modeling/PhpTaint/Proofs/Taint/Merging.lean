import Mathlib.Data.List.Induction
import PhpTaint.Proofs.Taint.Gathering

/-!
# The algebra of merging

A merge is a fold, and it treats the first occurrence of a leaf in another way than the
later ones. Still the order of the work does not matter: adding dependencies to others is
associative, so parts may be merged group by group. What a leaf comes to is the total of
its occurrences, which no order and no repetition changes. Only the order of the leaves, and
name and definition of each of them, are those of the first occurrence.
-/

namespace PhpTaint

namespace Table

variable {κ α : Type} [DecidableEq κ]

/-- The entries of a table, by its keys. -/
theorem entries_map_some (table : Table κ α) :
    table.entries.map (fun entry => (entry.1, some entry.2)) =
      table.keys.map fun key => (key, table.find? key) := by
  unfold keys
  rw [List.map_map]
  refine List.map_congr_left fun entry member => ?_
  rw [Function.comp_apply, find?_eq_some_of_mem member]

/-- Tables with the same keys in the same order and the same values are equal. -/
theorem ext_of_find? {left right : Table κ α} (keys : left.keys = right.keys)
    (found : forall key, left.find? key = right.find? key) : left = right := by
  have pairs : left.entries.map (fun entry => (entry.1, some entry.2)) =
      right.entries.map fun entry => (entry.1, some entry.2) := by
    rw [entries_map_some, entries_map_some, keys]
    exact List.map_congr_left fun key _ => congrArg (key, ·) (found key)
  refine ext (List.map_injective_iff.2 ?_ pairs)
  rintro ⟨key, value⟩ ⟨other, another⟩ same
  cases same
  rfl

end Table

/-- A list without repetitions has none to lose. -/
theorem eraseDups_of_nodup {names : List String} (distinct : names.Nodup) :
    names.eraseDups = names := by
  induction names with
  | nil => rfl
  | cons name rest inductionHypothesis =>
      obtain ⟨fresh, distinct⟩ := List.nodup_cons.1 distinct
      have kept : rest.filter (fun other => !other == name) = rest := by
        refine List.filter_eq_self.2 fun other member => ?_
        simp only [Bool.not_eq_true', beq_eq_false_iff_ne]
        rintro rfl
        exact fresh member
      rw [List.eraseDups_cons, kept, inductionHypothesis distinct]

variable {δ : Type}

namespace Level

/-- A join of levels is bounded by what bounds each of them. -/
theorem rank_joinAll_le_iff {levels : List Level} {bound : Nat} :
    (joinAll levels).rank <= bound ↔ forall level, level ∈ levels -> level.rank <= bound := by
  have grow : forall start : Level, (levels.foldl join start).rank <= bound ↔
      start.rank <= bound ∧ forall level, level ∈ levels -> level.rank <= bound := by
    induction levels with
    | nil => simp
    | cons level rest inductionHypothesis =>
        intro start
        rw [List.foldl_cons, inductionHypothesis, rank_join, Nat.max_le, List.forall_mem_cons,
          and_assoc]
  rw [joinAll, grow]
  exact and_iff_right (Nat.zero_le bound)

/-- Levels with the same upper bounds are equal. -/
theorem eq_of_rank_le_iff {left right : Level}
    (same : forall bound, left.rank <= bound ↔ right.rank <= bound) : left = right :=
  eq_of_rank_eq (Nat.le_antisymm ((same _).2 (Nat.le_refl _)) ((same _).1 (Nat.le_refl _)))

/-- Levels join in any grouping. -/
theorem join_assoc (first second third : Level) :
    (first.join second).join third = first.join (second.join third) := by
  refine eq_of_rank_eq ?_
  rw [rank_join, rank_join, rank_join, rank_join, Nat.max_assoc]

/-- Joining what is not above changes nothing. -/
theorem join_eq_left {first second : Level} (below : second.rank <= first.rank) :
    first.join second = first :=
  eq_of_rank_eq ((rank_join ..).trans (Nat.max_eq_left below))

end Level

namespace Record

theorem join_assoc (first second third : Record δ) :
    (first.join second).join third = first.join (second.join third) := by
  unfold join
  simp only [mk.injEq, true_and, Level.join_assoc]
  refine ⟨?_, ?_, ?_⟩ <;> ext <;> simp [or_assoc, and_assoc]

/-- Passing two records through a parameter is passing what they come to. -/
theorem passedThrough_join (first second parameter : Record δ) :
    (first.join second).passedThrough parameter =
      (first.passedThrough parameter).join (second.passedThrough parameter) := by
  unfold join passedThrough
  simp only [mk.injEq, true_and]
  refine ⟨?_, ?_, ?_⟩ <;> ext <;> simp <;> tauto

/-- A total takes up no flow twice. -/
theorem Totals.join_eq {total flow : Record δ} {flows : Record δ -> Prop}
    (totals : total.Totals True flows) (arrives : flows flow) : total.join flow = total := by
  have level := Level.join_eq_left (totals.rank_le flow arrives)
  have sanitizers : total.sanitizers ∪ flow.sanitizers = total.sanitizers := by
    ext name
    rw [NameSet.mem_union, or_iff_left_iff_imp]
    exact fun member => totals.allSanitizers trivial name ⟨flow, arrives, member⟩
  have common : total.common ∩ flow.common = total.common := by
    ext name
    rw [NameSet.mem_inter, and_iff_left_iff_imp]
    exact fun member => totals.common name member flow arrives
  have revoked : total.revoked ∪ flow.revoked = total.revoked := by
    ext name
    rw [NameSet.mem_union, or_iff_left_iff_imp]
    exact fun member => (totals.revoked name).2 ⟨flow, arrives, member⟩
  unfold Record.join
  rw [level, sanitizers, common, revoked]

/-- All totals of the same flows are alike. -/
theorem Totals.agree {first second : Record δ} {flows : Record δ -> Prop}
    (one : first.Totals True flows) (other : second.Totals True flows) :
    first.level = second.level ∧ first.sanitizers = second.sanitizers ∧
      first.common = second.common ∧ first.revoked = second.revoked := by
  obtain ⟨flow, arrives, level⟩ := one.attained
  obtain ⟨highest, highestArrives, highestLevel⟩ := other.attained
  refine ⟨Level.eq_of_rank_eq (Nat.le_antisymm ?_ ?_), ?_, ?_, ?_⟩
  · exact level ▸ other.rank_le flow arrives
  · exact highestLevel ▸ one.rank_le highest highestArrives
  · ext name
    exact ⟨fun member => other.allSanitizers trivial name (one.sanitizers name member),
      fun member => one.allSanitizers trivial name (other.sanitizers name member)⟩
  · ext name
    exact ⟨fun member => other.allCommon trivial name (one.common name member),
      fun member => one.allCommon trivial name (other.common name member)⟩
  · ext name
    rw [one.revoked, other.revoked]

end Record

namespace Dependencies

variable {first second merged added : Dependencies δ} {parts others : List (Dependencies δ)}

section Adding

/-- Absorbing a leaf that is there moves no leaf, and a new one comes last. -/
theorem keys_absorb (merged : Dependencies δ) (name : String) (record : Record δ) :
    (absorb merged name record).keys =
      if name ∈ merged.keys then merged.keys else merged.keys ++ [name] := by
  unfold absorb
  split <;> exact Table.keys_insert ..

/-- Absorbing a record joins it to the record of its leaf and changes no other. -/
theorem find?_absorb (merged : Dependencies δ) (name leaf : String) (record : Record δ) :
    (absorb merged name record).find? leaf =
      if leaf = name then (merged.find? leaf).merge Record.join (some record)
      else merged.find? leaf := by
  unfold absorb
  split
  · rename_i existing present
    rw [Table.find?_insert]
    split
    · rename_i same
      rw [same, present]
      rfl
    · rfl
  · rename_i absent
    rw [Table.find?_insert]
    split
    · rename_i same
      rw [same, absent]
      rfl
    · rfl

/-- The new leaves come after those that are there, in their order. -/
theorem keys_absorbAll (merged added : Dependencies δ) :
    (absorbAll merged added).keys =
      merged.keys ++ added.keys.filter fun leaf => decide (leaf ∉ merged.keys) := by
  obtain ⟨entries, distinct⟩ := added
  show (entries.foldl (fun current entry => absorb current entry.1 entry.2) merged).keys =
    merged.keys ++ (entries.map Prod.fst).filter fun leaf => decide (leaf ∉ merged.keys)
  induction entries generalizing merged with
  | nil => simp
  | cons entry rest inductionHypothesis =>
      rw [List.map_cons, List.nodup_cons] at distinct
      rw [List.foldl_cons, inductionHypothesis _ distinct.2, keys_absorb, List.map_cons]
      by_cases present : entry.1 ∈ merged.keys
      · rw [if_pos present, List.filter_cons_of_neg (by simp [present])]
      · rw [if_neg present, List.filter_cons_of_pos (by simp [present]), List.append_assoc,
          List.singleton_append]
        refine congrArg (merged.keys ++ entry.1 :: ·) (List.filter_congr fun leaf member => ?_)
        have other : leaf ≠ entry.1 := fun same => distinct.1 (same ▸ member)
        simp [other]

/-- The records of a leaf on both sides are joined. -/
theorem find?_absorbAll (merged added : Dependencies δ) (leaf : String) :
    (absorbAll merged added).find? leaf =
      (merged.find? leaf).merge Record.join (added.find? leaf) := by
  obtain ⟨entries, distinct⟩ := added
  show (entries.foldl (fun current entry => absorb current entry.1 entry.2) merged).find? leaf =
    (merged.find? leaf).merge Record.join (Table.lookupEntry leaf entries)
  induction entries generalizing merged with
  | nil => simp [Table.lookupEntry]
  | cons entry rest inductionHypothesis =>
      obtain ⟨name, record⟩ := entry
      rw [List.map_cons, List.nodup_cons] at distinct
      rw [List.foldl_cons, inductionHypothesis _ distinct.2, find?_absorb, Table.lookupEntry]
      by_cases same : leaf = name
      · have absent : Table.lookupEntry leaf rest = none := by
          refine (Table.find?_eq_none_iff ⟨rest, distinct.2⟩ leaf).2 ?_
          rw [same]
          exact distinct.1
        rw [if_pos same, if_pos same.symm, absent, Option.merge_none_right]
      · rw [if_neg same, if_neg (Ne.symm same)]

/-- Adding dependencies one after the other is adding them together. -/
theorem absorbAll_assoc (first second third : Dependencies δ) :
    absorbAll (absorbAll first second) third = absorbAll first (absorbAll second third) := by
  refine Table.ext_of_find? ?_ fun leaf => ?_
  · simp only [keys_absorbAll, List.filter_append, List.append_assoc, List.filter_filter]
    refine congrArg _ (congrArg _ (List.filter_congr fun leaf _ => ?_))
    by_cases inFirst : leaf ∈ first.keys <;> simp [inFirst]
  · simp only [find?_absorbAll]
    cases first.find? leaf <;> cases second.find? leaf <;> cases third.find? leaf <;>
      simp [Option.merge, Record.join_assoc]

/-- Adding what has already been taken up changes nothing. -/
theorem absorbAll_eq_self (taken : forall leaf record, added.find? leaf = some record ->
    ∃ total, merged.find? leaf = some total ∧ total.join record = total) :
    absorbAll merged added = merged := by
  refine Table.ext_of_find? ?_ fun leaf => ?_
  · rw [keys_absorbAll, List.filter_eq_nil_iff.2, List.append_nil]
    intro leaf member
    obtain ⟨record, found⟩ := (Table.mem_keys_iff added leaf).1 member
    obtain ⟨total, present, _⟩ := taken leaf record found
    simpa using (Table.mem_keys_iff merged leaf).2 ⟨total, present⟩
  · rw [find?_absorbAll]
    cases found : added.find? leaf with
    | none => exact Option.merge_none_right
    | some record =>
        obtain ⟨total, present, same⟩ := taken leaf record found
        rw [present]
        exact congrArg some same

end Adding

section Parts

/-- A fold adds what its parts merge to. -/
theorem foldl_absorbAll (start : Dependencies δ) (parts : List (Dependencies δ)) :
    parts.foldl absorbAll start = absorbAll start (merge parts) := by
  induction parts generalizing start with
  | nil => rfl
  | cons part rest inductionHypothesis =>
      rw [merge, List.foldl_cons, List.foldl_cons, inductionHypothesis,
        inductionHypothesis (absorbAll ∅ part), absorbAll_empty, absorbAll_assoc]

/-- Merging a part with others absorbs what the others come to. -/
theorem merge_cons (part : Dependencies δ) (rest : List (Dependencies δ)) :
    merge (part :: rest) = absorbAll part (merge rest) := by
  rw [merge, List.foldl_cons, absorbAll_empty, foldl_absorbAll]

/-- Two groups of parts may be merged each on its own first. -/
theorem merge_append (parts others : List (Dependencies δ)) :
    merge (parts ++ others) = absorbAll (merge parts) (merge others) := by
  rw [merge, List.foldl_append, foldl_absorbAll]
  rfl

/-- Parts may be merged group by group. -/
theorem merge_map_merge (groups : List (List (Dependencies δ))) :
    merge (groups.map merge) = merge groups.flatten := by
  induction groups with
  | nil => rfl
  | cons group rest inductionHypothesis =>
      rw [List.map_cons, merge_cons, inductionHypothesis, List.flatten_cons, merge_append]

/-- The leaves of a merge are those of its parts, each where it is first met. -/
theorem keys_merge (parts : List (Dependencies δ)) :
    (merge parts).keys = (parts.flatMap Table.keys).eraseDups := by
  induction parts using List.reverseRecOn with
  | nil => rfl
  | append_singleton parts part inductionHypothesis =>
      rw [merge_append, merge_singleton, keys_absorbAll, inductionHypothesis, List.flatMap_append,
        List.flatMap_singleton, List.eraseDups_append]
      have fresh : (part.keys.removeAll (parts.flatMap Table.keys)).Nodup :=
        part.keys_nodup.filter _
      rw [eraseDups_of_nodup fresh, List.removeAll]
      refine congrArg _ (List.filter_congr fun leaf _ => ?_)
      rw [List.elem_eq_contains, List.contains_eq_mem, ← decide_not]
      exact decide_eq_decide.2 (not_congr List.mem_eraseDups)

/-- What is found at a leaf is the join of its records, in the order of the parts. -/
theorem find?_merge (parts : List (Dependencies δ)) (leaf : String) :
    (merge parts).find? leaf =
      match parts.filterMap fun part => part.find? leaf with
      | [] => none
      | first :: rest => some (rest.foldl Record.join first) := by
  induction parts using List.reverseRecOn with
  | nil => rfl
  | append_singleton parts part inductionHypothesis =>
      rw [merge_append, merge_singleton, find?_absorbAll, inductionHypothesis,
        List.filterMap_append]
      cases present : part.find? leaf with
      | none => simp [present, Option.merge_none_right]
      | some record =>
          cases parts.filterMap fun part => part.find? leaf with
          | nil => simp [present, Option.merge]
          | cons first rest => simp [present, Option.merge, List.foldl_append]

/-- Joined records keep the name and the definition of the first one. -/
theorem name_foldl_join (first : Record δ) (rest : List (Record δ)) :
    (rest.foldl Record.join first).name = first.name ∧
      (rest.foldl Record.join first).definition = first.definition := by
  induction rest generalizing first with
  | nil => exact ⟨rfl, rfl⟩
  | cons record rest inductionHypothesis => exact inductionHypothesis (first.join record)

/-- A merge stands for all records of its parts. -/
theorem gathers_merge (parts : List (Dependencies δ)) :
    Gathers True (merge parts) fun leaf record =>
      ∃ part, part ∈ parts ∧ part.find? leaf = some record := by
  have each : forall part, part ∈ parts ->
      Gathers True (id part) fun leaf record => part.find? leaf = some record :=
    fun _ _ => Gathers.self
  have gathers := Gathers.merge_map each
  rwa [List.map_id] at gathers

/-- The record of a part has its share in the merge. -/
theorem exists_total_merge {part : Dependencies δ} {leaf : String} {record : Record δ}
    (member : part ∈ parts) (found : part.find? leaf = some record) :
    ∃ total, (merge parts).find? leaf = some total ∧
      total.Totals True fun record => ∃ part, part ∈ parts ∧ part.find? leaf = some record := by
  have gathers := gathers_merge parts
  have present := (gathers.leaves leaf).2 ⟨record, part, member, found⟩
  obtain ⟨total, present⟩ := (Table.mem_keys_iff _ leaf).1 present
  exact ⟨total, present, gathers.totals leaf total present⟩

/-- Where some parts have a record of a leaf, the merge has their total, with name and
definition of the first. -/
theorem exists_total_of_records {leaf : String} {first : Record δ} {rest : List (Record δ)}
    (records : (parts.filterMap fun part => part.find? leaf) = first :: rest) :
    ∃ total, (merge parts).find? leaf = some total ∧ total.name = first.name ∧
      total.definition = first.definition ∧
        total.Totals True fun record => record ∈ first :: rest := by
  have present : (merge parts).find? leaf = some (rest.foldl Record.join first) := by
    rw [find?_merge, records]
  obtain ⟨name, definition⟩ := name_foldl_join first rest
  refine ⟨_, present, name, definition, ?_⟩
  refine ((gathers_merge parts).totals leaf _ present).congr fun record => ?_
  rw [← records, List.mem_filterMap]

/-- Parts that are the same ones up to order and repetition have the same leaves, with the
same totals. -/
theorem merge_alike (same : forall part, part ∈ others ↔ part ∈ parts) :
    (forall leaf, leaf ∈ (merge others).keys ↔ leaf ∈ (merge parts).keys) ∧
      forall leaf total other, (merge parts).find? leaf = some total ->
        (merge others).find? leaf = some other ->
          other.level = total.level ∧ other.sanitizers = total.sanitizers ∧
            other.common = total.common ∧ other.revoked = total.revoked := by
  have gathers := gathers_merge parts
  have gathersOthers := (gathers_merge others).congr fun leaf record =>
    exists_congr fun part => and_congr_left fun _ => same part
  refine ⟨fun leaf => (gathersOthers.leaves leaf).trans (gathers.leaves leaf).symm, ?_⟩
  intro leaf total other found otherFound
  exact (gathersOthers.totals leaf other otherFound).agree (gathers.totals leaf total found)

/-- A part that has been merged adds nothing where it stands again. -/
theorem merge_insert_copy {before after : List (Dependencies δ)} {part : Dependencies δ}
    (member : part ∈ before) : merge (before ++ part :: after) = merge (before ++ after) := by
  have taken : absorbAll (merge before) part = merge before := by
    refine absorbAll_eq_self fun leaf record found => ?_
    obtain ⟨total, present, totals⟩ := exists_total_merge member found
    exact ⟨total, present, totals.join_eq ⟨part, member, found⟩⟩
  rw [merge_append, merge_cons, ← absorbAll_assoc, taken, merge_append]

/-- What is done to records alike may be done before or after they are merged. -/
theorem merge_map_mapValues {change : Record δ -> Record δ}
    (joins : forall first second, change (first.join second) = (change first).join (change second))
    (parts : List (Dependencies δ)) :
    merge (parts.map fun part => part.mapValues change) = (merge parts).mapValues change := by
  induction parts with
  | nil => rfl
  | cons part rest inductionHypothesis =>
      rw [List.map_cons, merge_cons, merge_cons, inductionHypothesis]
      refine Table.ext_of_find? ?_ fun leaf => ?_
      · simp only [keys_absorbAll, Table.keys_mapValues]
      · simp only [find?_absorbAll, Table.find?_mapValues]
        cases part.find? leaf <;> cases (merge rest).find? leaf <;> simp [Option.merge, joins]

end Parts

section Summaries

/-- The level of dependencies is bounded by what bounds each record. -/
theorem rank_level_le_iff {deps : Dependencies δ} {bound : Nat} :
    deps.level.rank <= bound ↔
      forall leaf record, deps.find? leaf = some record -> record.level.rank <= bound := by
  rw [level, Level.rank_joinAll_le_iff, List.forall_mem_map]
  constructor
  · intro each leaf record found
    exact each record (Table.mem_values_iff.2 ⟨leaf, found⟩)
  · intro each record member
    obtain ⟨leaf, found⟩ := Table.mem_values_iff.1 member
    exact each leaf record found

/-- A union of sets has the members of each of them. -/
theorem mem_foldl_union {ι : Type} {items : List ι} {namesOf : ι -> NameSet} {start : NameSet}
    {name : String} :
    name ∈ items.foldl (fun names item => names ∪ namesOf item) start ↔
      name ∈ start ∨ ∃ item, item ∈ items ∧ name ∈ namesOf item := by
  induction items generalizing start with
  | nil => simp
  | cons item rest inductionHypothesis =>
      rw [List.foldl_cons, inductionHypothesis, NameSet.mem_union, or_assoc]
      simp

/-- The sanitizers of dependencies are those of their records. -/
theorem mem_sanitizers_iff {deps : Dependencies δ} {name : String} :
    name ∈ deps.sanitizers ↔
      ∃ leaf record, deps.find? leaf = some record ∧ name ∈ record.sanitizers := by
  unfold sanitizers
  rw [mem_foldl_union]
  constructor
  · rintro (inNothing | ⟨record, member, listed⟩)
    · exact absurd inNothing (NameSet.not_mem_empty name)
    · obtain ⟨leaf, found⟩ := Table.mem_values_iff.1 member
      exact ⟨leaf, record, found, listed⟩
  · rintro ⟨leaf, record, found, listed⟩
    exact Or.inr ⟨record, Table.mem_values_iff.2 ⟨leaf, found⟩, listed⟩

/-- Merged dependencies have the join of the levels. -/
theorem level_merge (parts : List (Dependencies δ)) :
    (merge parts).level = Level.joinAll (parts.map level) := by
  have gathers := gathers_merge parts
  refine Level.eq_of_rank_le_iff fun bound => ?_
  rw [rank_level_le_iff, Level.rank_joinAll_le_iff, List.forall_mem_map]
  constructor
  · intro each part member
    refine rank_level_le_iff.2 fun leaf record found => ?_
    obtain ⟨total, present, totals⟩ := exists_total_merge member found
    exact Nat.le_trans (totals.rank_le record ⟨part, member, found⟩) (each leaf total present)
  · intro each leaf total present
    obtain ⟨record, ⟨part, member, found⟩, same⟩ := (gathers.totals leaf total present).attained
    rw [← same]
    exact rank_level_le_iff.1 (each part member) leaf record found

/-- Merged dependencies have the union of the sanitizers. -/
theorem sanitizers_merge (parts : List (Dependencies δ)) :
    (merge parts).sanitizers =
      parts.foldl (fun names part => names ∪ part.sanitizers) ∅ := by
  have gathers := gathers_merge parts
  ext name
  rw [mem_sanitizers_iff, mem_foldl_union]
  simp only [NameSet.not_mem_empty, false_or, mem_sanitizers_iff]
  constructor
  · rintro ⟨leaf, total, present, listed⟩
    obtain ⟨record, ⟨part, member, found⟩, inRecord⟩ :=
      (gathers.totals leaf total present).sanitizers name listed
    exact ⟨part, member, leaf, record, found, inRecord⟩
  · rintro ⟨part, member, leaf, record, found, listed⟩
    obtain ⟨total, present, totals⟩ := exists_total_merge member found
    exact ⟨leaf, total, present,
      totals.allSanitizers trivial name ⟨record, ⟨part, member, found⟩, listed⟩⟩

end Summaries

end Dependencies

end PhpTaint
