import Mathlib.Data.List.Forall2
import PhpTaint.Proofs.Taint.Dependencies

/-!
# What dependencies gather

A record of a leaf stands for all flows that arrive at it: it has the highest of
their levels, the sanitizers of some flow, the common sanitizers of every flow
and what some flow revoked. `Totals` says so of one record and `Gathers` of every
leaf of a value.

Merging gathers the flows of all parts. A function, and a call through a
parameter, act on every flow alike, so they may as well act on the total. The
other way round is weaker: a total that was formed before the argument is known
never has more sanitizers than the flows, and may have fewer. The parameter
`exact` of both notions says whether it has all of them.
-/

namespace PhpTaint

variable {δ : Type}

namespace Level

/-- The join of two levels is the higher one. -/
theorem rank_join (left right : Level) : (left.join right).rank = max left.rank right.rank := by
  cases left <;> cases right <;> rfl

/-- A level is told by its rank. -/
theorem eq_of_rank_eq {left right : Level} (same : left.rank = right.rank) : left = right := by
  cases left <;> cases right <;> first | rfl | cases same

end Level

namespace Record

/-- A flow on which nothing has acted. -/
def idle : Record δ := unassigned ""

/-- Passing through nothing changes nothing. -/
@[simp] theorem passedThrough_unassigned (record : Record δ) (name : String) :
    record.passedThrough (unassigned name) = record := by
  obtain ⟨name, level, sanitizers, definition, common, revoked⟩ := record
  simp only [passedThrough, unassigned, leaf, mk.injEq, true_and]
  refine ⟨?_, ?_, ?_⟩ <;> ext <;> simp

/-- Steps that follow each other are one step. -/
theorem passedThrough_passedThrough (record first second : Record δ) :
    (record.passedThrough first).passedThrough second =
      record.passedThrough (first.passedThrough second) := by
  obtain ⟨name, level, sanitizers, definition, common, revoked⟩ := record
  simp only [passedThrough, mk.injEq, true_and]
  refine ⟨?_, ?_, ?_⟩ <;> ext <;> simp <;> tauto

/-- A sanitizer is a step. -/
theorem withSanitizer_eq (record : Record δ) (sanitizer : String) :
    record.withSanitizer sanitizer = record.passedThrough (idle.withSanitizer sanitizer) := by
  obtain ⟨name, level, sanitizers, definition, common, revoked⟩ := record
  simp only [passedThrough, withSanitizer, idle, unassigned, leaf, mk.injEq, true_and]
  refine ⟨?_, ?_, ?_⟩ <;> ext <;> simp [or_comm]

/-- A function that undoes a sanitizer is a step. -/
theorem withoutSanitizer_eq (record : Record δ) (sanitizer : String) :
    record.withoutSanitizer sanitizer = record.passedThrough (idle.withoutSanitizer sanitizer) := by
  obtain ⟨name, level, sanitizers, definition, common, revoked⟩ := record
  simp only [passedThrough, withoutSanitizer, idle, unassigned, leaf, mk.injEq, true_and]
  refine ⟨?_, ?_, ?_⟩ <;> ext <;> simp [or_comm]

/-- A record stands for some flows, with all of their sanitizers if `exact`. -/
structure Totals (exact : Prop) (total : Record δ) (flows : Record δ -> Prop) : Prop where
  rank_le : forall flow, flows flow -> flow.level.rank <= total.level.rank
  attained : ∃ flow, flows flow ∧ flow.level = total.level
  sanitizers : forall name, name ∈ total.sanitizers -> ∃ flow, flows flow ∧ name ∈ flow.sanitizers
  common : forall name, name ∈ total.common -> forall flow, flows flow -> name ∈ flow.common
  revoked : forall name, name ∈ total.revoked ↔ ∃ flow, flows flow ∧ name ∈ flow.revoked
  allSanitizers : exact -> forall name, (∃ flow, flows flow ∧ name ∈ flow.sanitizers) ->
    name ∈ total.sanitizers
  allCommon : exact -> forall name, (forall flow, flows flow -> name ∈ flow.common) ->
    name ∈ total.common

namespace Totals

variable {exact : Prop} {total first second : Record δ} {flows others : Record δ -> Prop}

/-- A record stands for itself, and for a record that differs in name and
definition only. -/
theorem of_alike {flow : Record δ} (level : flow.level = total.level)
    (sanitizers : flow.sanitizers = total.sanitizers) (common : flow.common = total.common)
    (revoked : flow.revoked = total.revoked) : total.Totals exact (· = flow) := by
  refine ⟨?_, ⟨flow, rfl, level⟩, ?_, ?_, ?_, ?_, ?_⟩
  · rintro _ rfl
    exact Nat.le_of_eq (congrArg Level.rank level)
  · intro name member
    exact ⟨flow, rfl, sanitizers ▸ member⟩
  · rintro name member _ rfl
    exact common ▸ member
  · intro name
    simp [revoked]
  · rintro _ name ⟨_, rfl, member⟩
    exact sanitizers ▸ member
  · intro _ name every
    exact common ▸ every flow rfl

/-- A record totals itself. -/
theorem self : total.Totals exact (· = total) := of_alike rfl rfl rfl rfl

/-- The flows of a total may be described in other words. -/
theorem congr (totals : total.Totals exact flows) (same : forall flow, flows flow ↔ others flow) :
    total.Totals exact others := by
  have equal : flows = others := funext fun flow => propext (same flow)
  exact equal ▸ totals

/-- An exact total is a total. -/
theorem weaken (totals : total.Totals True flows) : total.Totals exact flows :=
  { totals with
    allSanitizers := fun _ => totals.allSanitizers trivial
    allCommon := fun _ => totals.allCommon trivial }

/-- Two records together stand for the flows of both. -/
theorem join (one : first.Totals exact flows) (other : second.Totals exact others) :
    (first.join second).Totals exact fun flow => flows flow ∨ others flow := by
  have rank : (first.join second).level.rank = max first.level.rank second.level.rank :=
    Level.rank_join ..
  refine ⟨?_, ?_, ?_, ?_, ?_, ?_, ?_⟩
  · rintro flow (arrives | arrives)
    · have := one.rank_le flow arrives
      omega
    · have := other.rank_le flow arrives
      omega
  · obtain ⟨left, leftArrives, leftLevel⟩ := one.attained
    obtain ⟨right, rightArrives, rightLevel⟩ := other.attained
    rcases Nat.le_total first.level.rank second.level.rank with below | above
    · exact ⟨right, Or.inr rightArrives, rightLevel.trans (Level.eq_of_rank_eq (by omega))⟩
    · exact ⟨left, Or.inl leftArrives, leftLevel.trans (Level.eq_of_rank_eq (by omega))⟩
  · intro name member
    rcases NameSet.mem_union.1 member with inFirst | inSecond
    · obtain ⟨flow, arrives, listed⟩ := one.sanitizers name inFirst
      exact ⟨flow, Or.inl arrives, listed⟩
    · obtain ⟨flow, arrives, listed⟩ := other.sanitizers name inSecond
      exact ⟨flow, Or.inr arrives, listed⟩
  · rintro name member flow (arrives | arrives)
    · exact one.common name (NameSet.mem_inter.1 member).1 flow arrives
    · exact other.common name (NameSet.mem_inter.1 member).2 flow arrives
  · intro name
    show name ∈ first.revoked ∪ second.revoked ↔ _
    rw [NameSet.mem_union, one.revoked, other.revoked, ← exists_or]
    simp only [or_and_right]
  · rintro holds name ⟨flow, arrives | arrives, listed⟩
    · exact NameSet.mem_union.2 (Or.inl (one.allSanitizers holds name ⟨flow, arrives, listed⟩))
    · exact NameSet.mem_union.2 (Or.inr (other.allSanitizers holds name ⟨flow, arrives, listed⟩))
  · intro holds name every
    refine NameSet.mem_inter.2 ⟨one.allCommon holds name ?_, other.allCommon holds name ?_⟩
    · exact fun flow arrives => every flow (Or.inl arrives)
    · exact fun flow arrives => every flow (Or.inr arrives)

/-- A step acts on a total as it acts on every flow. -/
theorem passedThrough (totals : total.Totals exact flows) (step : Record δ) :
    (total.passedThrough step).Totals exact fun flow =>
      ∃ before, flows before ∧ flow = before.passedThrough step := by
  obtain ⟨attaining, arrives, level⟩ := totals.attained
  refine ⟨?_, ⟨_, ⟨attaining, arrives, rfl⟩, level⟩, ?_, ?_, ?_, ?_, ?_⟩
  · rintro _ ⟨before, arrives, rfl⟩
    exact totals.rank_le before arrives
  · intro name member
    rcases NameSet.mem_union.1 member with kept | added
    · obtain ⟨inTotal, unrevoked⟩ := NameSet.mem_sdiff.1 kept
      obtain ⟨before, arrives, listed⟩ := totals.sanitizers name inTotal
      exact ⟨_, ⟨before, arrives, rfl⟩,
        NameSet.mem_union.2 (Or.inl (NameSet.mem_sdiff.2 ⟨listed, unrevoked⟩))⟩
    · exact ⟨_, ⟨attaining, arrives, rfl⟩, NameSet.mem_union.2 (Or.inr added)⟩
  · rintro name member _ ⟨before, arrives, rfl⟩
    rcases NameSet.mem_union.1 member with kept | added
    · obtain ⟨inTotal, unrevoked⟩ := NameSet.mem_sdiff.1 kept
      exact NameSet.mem_union.2 (Or.inl (NameSet.mem_sdiff.2
        ⟨totals.common name inTotal before arrives, unrevoked⟩))
    · exact NameSet.mem_union.2 (Or.inr added)
  · intro name
    show name ∈ total.revoked ∪ step.revoked ↔ _
    rw [NameSet.mem_union, totals.revoked]
    constructor
    · rintro (⟨before, arrives, listed⟩ | added)
      · exact ⟨_, ⟨before, arrives, rfl⟩, NameSet.mem_union.2 (Or.inl listed)⟩
      · exact ⟨_, ⟨attaining, arrives, rfl⟩, NameSet.mem_union.2 (Or.inr added)⟩
    · rintro ⟨_, ⟨before, arrives, rfl⟩, listed⟩
      exact (NameSet.mem_union.1 listed).imp_left fun inBefore => ⟨before, arrives, inBefore⟩
  · rintro holds name ⟨_, ⟨before, arrives, rfl⟩, listed⟩
    rcases NameSet.mem_union.1 listed with kept | added
    · obtain ⟨inBefore, unrevoked⟩ := NameSet.mem_sdiff.1 kept
      exact NameSet.mem_union.2 (Or.inl (NameSet.mem_sdiff.2
        ⟨totals.allSanitizers holds name ⟨before, arrives, inBefore⟩, unrevoked⟩))
    · exact NameSet.mem_union.2 (Or.inr added)
  · intro holds name every
    have each : forall flow, flows flow -> name ∈ flow.common ∧ name ∉ step.revoked ∨
        name ∈ step.common := by
      intro flow arrives
      have listed := every _ ⟨flow, arrives, rfl⟩
      exact (NameSet.mem_union.1 listed).imp_left fun kept => NameSet.mem_sdiff.1 kept
    by_cases added : name ∈ step.common
    · exact NameSet.mem_union.2 (Or.inr added)
    · have kept := fun flow arrives => (each flow arrives).resolve_right added
      exact NameSet.mem_union.2 (Or.inl (NameSet.mem_sdiff.2
        ⟨totals.allCommon holds name fun flow arrives => (kept flow arrives).1,
          (kept attaining arrives).2⟩))

/-- A total of steps acts on a flow with no more effect than the steps do, and with
the same effect if none of them revokes anything. -/
theorem through (totals : total.Totals True flows) (argument : Record δ)
    (harmless : exact -> forall name, name ∉ total.revoked) :
    (argument.passedThrough total).Totals exact fun flow =>
      ∃ step, flows step ∧ flow = argument.passedThrough step := by
  obtain ⟨some, arrives, _⟩ := totals.attained
  have unrevoked : forall name, name ∉ total.revoked -> forall step, flows step ->
      name ∉ step.revoked :=
    fun name absent step arrives listed => absent ((totals.revoked name).2 ⟨step, arrives, listed⟩)
  refine ⟨?_, ⟨_, ⟨some, arrives, rfl⟩, rfl⟩, ?_, ?_, ?_, ?_, ?_⟩
  · rintro _ ⟨step, _, rfl⟩
    exact Nat.le_refl _
  · intro name member
    rcases NameSet.mem_union.1 member with kept | added
    · obtain ⟨inArgument, absent⟩ := NameSet.mem_sdiff.1 kept
      exact ⟨_, ⟨some, arrives, rfl⟩, NameSet.mem_union.2 (Or.inl (NameSet.mem_sdiff.2
        ⟨inArgument, unrevoked name absent some arrives⟩))⟩
    · obtain ⟨step, arrives, listed⟩ := totals.sanitizers name added
      exact ⟨_, ⟨step, arrives, rfl⟩, NameSet.mem_union.2 (Or.inr listed)⟩
  · rintro name member _ ⟨step, arrives, rfl⟩
    rcases NameSet.mem_union.1 member with kept | added
    · obtain ⟨inArgument, absent⟩ := NameSet.mem_sdiff.1 kept
      exact NameSet.mem_union.2 (Or.inl (NameSet.mem_sdiff.2
        ⟨inArgument, unrevoked name absent step arrives⟩))
    · exact NameSet.mem_union.2 (Or.inr (totals.common name added step arrives))
  · intro name
    show name ∈ argument.revoked ∪ total.revoked ↔ _
    rw [NameSet.mem_union, totals.revoked]
    constructor
    · rintro (inArgument | ⟨step, arrives, listed⟩)
      · exact ⟨_, ⟨some, arrives, rfl⟩, NameSet.mem_union.2 (Or.inl inArgument)⟩
      · exact ⟨_, ⟨step, arrives, rfl⟩, NameSet.mem_union.2 (Or.inr listed)⟩
    · rintro ⟨_, ⟨step, arrives, rfl⟩, listed⟩
      exact (NameSet.mem_union.1 listed).imp_right fun inStep => ⟨step, arrives, inStep⟩
  · rintro holds name ⟨_, ⟨step, arrives, rfl⟩, listed⟩
    rcases NameSet.mem_union.1 listed with kept | added
    · exact NameSet.mem_union.2 (Or.inl (NameSet.mem_sdiff.2
        ⟨(NameSet.mem_sdiff.1 kept).1, harmless holds name⟩))
    · exact NameSet.mem_union.2 (Or.inr (totals.allSanitizers trivial name ⟨step, arrives, added⟩))
  · intro holds name every
    by_cases inArgument : name ∈ argument.common
    · exact NameSet.mem_union.2 (Or.inl (NameSet.mem_sdiff.2 ⟨inArgument, harmless holds name⟩))
    · refine NameSet.mem_union.2 (Or.inr (totals.allCommon trivial name fun step arrives => ?_))
      rcases NameSet.mem_union.1 (every _ ⟨step, arrives, rfl⟩) with kept | added
      · exact absurd (NameSet.mem_sdiff.1 kept).1 inArgument
      · exact added

end Totals

end Record

namespace Dependencies

/-- Which flows arrive at which leaf. -/
abbrev Flows (δ : Type) := String -> Record δ -> Prop

/-- Dependencies stand for some flows: their leaves are those at which a flow
arrives, and each record stands for the flows that arrive at its leaf. -/
structure Gathers (exact : Prop) (deps : Dependencies δ) (flows : Flows δ) : Prop where
  leaves : forall name, name ∈ deps.keys ↔ ∃ flow, flows name flow
  totals : forall name total, deps.find? name = some total -> total.Totals exact (flows name)

variable {exact : Prop} {deps first second : Dependencies δ} {flows others : Flows δ}

namespace Gathers

/-- The flows that dependencies gather may be described in other words. -/
theorem congr (gathers : Gathers exact deps flows)
    (same : forall name flow, flows name flow ↔ others name flow) : Gathers exact deps others := by
  have equal : flows = others := funext fun name => funext fun flow => propext (same name flow)
  exact equal ▸ gathers

theorem empty : Gathers exact (∅ : Dependencies δ) fun _ _ => False := by
  refine ⟨?_, ?_⟩
  · intro name
    simp
  · intro name total found
    cases found

/-- Every leaf may be taken as one flow. -/
theorem self : Gathers exact deps fun name flow => deps.find? name = some flow := by
  refine ⟨fun name => Table.mem_keys_iff deps name, ?_⟩
  intro name total found
  refine Record.Totals.self.congr fun flow => ?_
  rw [found, Option.some.injEq]
  exact eq_comm

/-- A single leaf gathers the flows that its record totals. -/
theorem single {name : String} {record : Record δ} {flows : Record δ -> Prop}
    (totals : record.Totals exact flows) :
    Gathers exact (single name record) fun leaf flow => leaf = name ∧ flows flow := by
  obtain ⟨flow, arrives, _⟩ := totals.attained
  refine ⟨?_, ?_⟩
  · intro leaf
    rw [keys_single, List.mem_singleton]
    exact ⟨fun same => ⟨flow, same, arrives⟩, fun ⟨_, same, _⟩ => same⟩
  · intro leaf total found
    unfold Dependencies.single at found
    rw [Table.find?_insert] at found
    split at found
    · rename_i same
      cases found
      exact totals.congr fun flow => by simp [same]
    · cases found

/-- Absorbing a record gathers its flows, too. -/
theorem absorb (gathers : Gathers exact deps flows) (name : String) {record : Record δ}
    {added : Record δ -> Prop} (totals : record.Totals exact added) :
    Gathers exact (absorb deps name record) fun leaf flow =>
      flows leaf flow ∨ leaf = name ∧ added flow := by
  obtain ⟨some, arrives, _⟩ := totals.attained
  refine ⟨?_, ?_⟩
  · intro leaf
    rw [mem_keys_absorb, gathers.leaves, exists_or]
    refine or_congr_right ⟨fun same => ⟨some, same, arrives⟩, fun ⟨_, same, _⟩ => same⟩
  · intro leaf total found
    unfold Dependencies.absorb at found
    by_cases same : leaf = name
    · subst same
      cases earlier : deps.find? leaf with
      | some existing =>
          rw [earlier] at found
          simp only [Table.find?_insert_self, Option.some.injEq] at found
          subst found
          refine ((gathers.totals leaf existing earlier).join totals).congr fun flow => ?_
          simp
      | none =>
          rw [earlier] at found
          simp only [Table.find?_insert_self, Option.some.injEq] at found
          subst found
          have absent : forall flow, ¬ flows leaf flow := fun flow arrives =>
            (Table.find?_eq_none_iff deps leaf).1 earlier ((gathers.leaves leaf).2 ⟨flow, arrives⟩)
          exact totals.congr fun flow => by simp [absent flow]
    · have kept : deps.find? leaf = Option.some total := by
        split at found <;> rwa [Table.find?_insert_of_ne _ _ same] at found
      exact (gathers.totals leaf total kept).congr fun flow => by simp [same]

/-- Absorbing dependencies gathers their flows, too. -/
theorem absorbAll (one : Gathers exact first flows) (other : Gathers exact second others) :
    Gathers exact (absorbAll first second) fun name flow => flows name flow ∨ others name flow := by
  have grow : forall entries : List (String × Record δ),
      (forall entry, entry ∈ entries -> entry.2.Totals exact (others entry.1)) ->
      forall (start : Dependencies δ) (flows : Flows δ), Gathers exact start flows ->
        Gathers exact (entries.foldl (fun current entry => current.absorb entry.1 entry.2) start)
          fun name flow => flows name flow ∨ name ∈ entries.map Prod.fst ∧ others name flow := by
    intro entries
    induction entries with
    | nil =>
        intro _ start flows gathers
        exact gathers.congr fun name flow => by simp
    | cons entry rest inductionHypothesis =>
        intro totals start flows gathers
        have next := gathers.absorb entry.1 (totals entry (List.mem_cons_self ..))
        refine (inductionHypothesis (fun other member => totals other
          (List.mem_cons_of_mem _ member)) _ _ next).congr fun name flow => ?_
        rw [List.map_cons, List.mem_cons, or_and_right, or_assoc]
        refine or_congr_right (or_congr_left (and_congr_right fun same => ?_))
        rw [same]
  have listed : forall entry, entry ∈ second.entries -> entry.2.Totals exact (others entry.1) :=
    fun entry member => other.totals entry.1 entry.2 (Table.find?_eq_some_of_mem member)
  refine (grow second.entries listed first flows one).congr fun name flow => ?_
  refine or_congr_right ⟨fun present => present.2, fun arrives => ⟨?_, arrives⟩⟩
  exact (other.leaves name).2 ⟨flow, arrives⟩

/-- A merge gathers the flows of all parts. -/
theorem merge {ι : Type} {items : List ι} {parts : List (Dependencies δ)} {flowsOf : ι -> Flows δ}
    (each : List.Forall₂ (fun item part => Gathers exact part (flowsOf item)) items parts) :
    Gathers exact (merge parts) fun name flow => ∃ item, item ∈ items ∧ flowsOf item name flow := by
  have grow : forall (start : Dependencies δ) (flows : Flows δ), Gathers exact start flows ->
      Gathers exact (parts.foldl Dependencies.absorbAll start) fun name flow =>
        flows name flow ∨ ∃ item, item ∈ items ∧ flowsOf item name flow := by
    induction each with
    | nil =>
        intro start flows gathers
        exact gathers.congr fun name flow => by simp
    | cons one _ inductionHypothesis =>
        intro start flows gathers
        refine (inductionHypothesis _ _ (gathers.absorbAll one)).congr fun name flow => ?_
        rw [or_assoc]
        simp
  exact (grow ∅ _ empty).congr fun name flow => by simp

/-- Merged dependencies gather the flows of all parts. -/
theorem merge_map {ι : Type} {items : List ι} {valueOf : ι -> Dependencies δ}
    {flowsOf : ι -> Flows δ}
    (each : forall item, item ∈ items -> Gathers exact (valueOf item) (flowsOf item)) :
    Gathers exact (Dependencies.merge (items.map valueOf)) fun name flow =>
      ∃ item, item ∈ items ∧ flowsOf item name flow :=
  merge (List.forall₂_map_right_iff.2 (List.forall₂_same.2 each))

/-- A step acts on dependencies as it acts on every flow. -/
theorem passedThrough (gathers : Gathers exact deps flows) (step : Record δ) :
    Gathers exact (deps.mapValues fun record => record.passedThrough step) fun name flow =>
      ∃ before, flows name before ∧ flow = before.passedThrough step := by
  refine ⟨?_, ?_⟩
  · intro name
    rw [Table.keys_mapValues, gathers.leaves]
    exact ⟨fun ⟨flow, arrives⟩ => ⟨_, flow, arrives, rfl⟩, fun ⟨_, flow, arrives, _⟩ => ⟨flow, arrives⟩⟩
  · intro name total found
    rw [Table.find?_mapValues] at found
    obtain ⟨before, listed, rfl⟩ := Option.map_eq_some_iff.1 found
    exact (gathers.totals name before listed).passedThrough step

/-- A total of steps acts on the leaves of an argument. -/
theorem through {total : Record δ} {steps : Record δ -> Prop} (totals : total.Totals True steps)
    (argument : Dependencies δ) (harmless : exact -> forall name, name ∉ total.revoked) :
    Gathers exact (argument.mapValues fun leaf => leaf.passedThrough total) fun name flow =>
      ∃ step, steps step ∧ ∃ leaf, argument.find? name = some leaf ∧
        flow = leaf.passedThrough step := by
  obtain ⟨some, arrives, _⟩ := totals.attained
  refine ⟨?_, ?_⟩
  · intro name
    rw [Table.keys_mapValues, Table.mem_keys_iff]
    constructor
    · rintro ⟨leaf, found⟩
      exact ⟨_, some, arrives, leaf, found, rfl⟩
    · rintro ⟨_, _, _, leaf, found, _⟩
      exact ⟨leaf, found⟩
  · intro name record found
    rw [Table.find?_mapValues] at found
    obtain ⟨leaf, listed, rfl⟩ := Option.map_eq_some_iff.1 found
    exact (totals.through leaf harmless).congr fun flow => by simp [listed]

end Gathers

/-- The first value may stand for the second one: it has the same leaves with the
same levels, and never more sanitizers; if `exact`, it has all of them. -/
structure StandsFor (exact : Prop) (deps other : Dependencies δ) : Prop where
  leaves : forall name, name ∈ deps.keys ↔ name ∈ other.keys
  level : forall name record expected, deps.find? name = some record ->
    other.find? name = some expected -> record.level = expected.level
  common : forall name record expected, deps.find? name = some record ->
    other.find? name = some expected ->
      forall sanitizer, sanitizer ∈ record.common -> sanitizer ∈ expected.common
  sanitizers : forall name record expected, deps.find? name = some record ->
    other.find? name = some expected ->
      forall sanitizer, sanitizer ∈ record.sanitizers -> sanitizer ∈ expected.sanitizers
  same : exact -> forall name record expected, deps.find? name = some record ->
    other.find? name = some expected ->
      record.common = expected.common ∧ record.sanitizers = expected.sanitizers

/-- Values that gather the same flows, the second one all their sanitizers. -/
theorem Gathers.standsFor (gathers : Gathers exact deps flows) (all : Gathers True first flows) :
    StandsFor exact deps first := by
  have common : forall name record expected, deps.find? name = some record ->
      first.find? name = some expected ->
        forall sanitizer, sanitizer ∈ record.common -> sanitizer ∈ expected.common := by
    intro name record expected found wanted sanitizer member
    exact (all.totals name expected wanted).allCommon trivial sanitizer
      ((gathers.totals name record found).common sanitizer member)
  have sanitizers : forall name record expected, deps.find? name = some record ->
      first.find? name = some expected ->
        forall sanitizer, sanitizer ∈ record.sanitizers -> sanitizer ∈ expected.sanitizers := by
    intro name record expected found wanted sanitizer member
    exact (all.totals name expected wanted).allSanitizers trivial sanitizer
      ((gathers.totals name record found).sanitizers sanitizer member)
  refine ⟨?_, ?_, common, sanitizers, ?_⟩
  · intro name
    rw [gathers.leaves, all.leaves]
  · intro name record expected found wanted
    have one := gathers.totals name record found
    have other := all.totals name expected wanted
    obtain ⟨flow, arrives, level⟩ := one.attained
    obtain ⟨flow', arrives', level'⟩ := other.attained
    have above := one.rank_le flow' arrives'
    have below := other.rank_le flow arrives
    rw [level] at below
    rw [level'] at above
    exact Level.eq_of_rank_eq (Nat.le_antisymm below above)
  · intro holds name record expected found wanted
    have one := gathers.totals name record found
    have other := all.totals name expected wanted
    refine ⟨?_, ?_⟩
    · ext sanitizer
      exact ⟨common name record expected found wanted sanitizer, fun member =>
        one.allCommon holds sanitizer (other.common sanitizer member)⟩
    · ext sanitizer
      exact ⟨sanitizers name record expected found wanted sanitizer, fun member =>
        one.allSanitizers holds sanitizer (other.sanitizers sanitizer member)⟩

end Dependencies

end PhpTaint
