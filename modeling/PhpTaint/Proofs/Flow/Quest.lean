import PhpTaint.Proofs.Flow.Graph
import PhpTaint.Proofs.Taint.Gathering

/-!
# What a search looks for

The dependencies that a trace reports show the leaves of a value, and among them
those that derive from untrusted input. In the graph of definitions and uses a leaf
is where the graph ends, `LeafSite`, and untrusted input enters at some of these
sites, `InputSite`. `Quest` is the choice between the two.

A search asks the same of both: joining values keeps what every part shows and adds
nothing, functions leave it alone, and what an expression or a variable shows by
itself is what lies at its site.
-/

namespace PhpTaint

namespace Dependencies

variable {δ : Type} {deps : Dependencies δ} {parts : List (Dependencies δ)} {name leaf : String}

/-- A leaf derives from untrusted input. -/
def Tainted (deps : Dependencies δ) (name : String) : Prop :=
  (deps.find? name).map Record.level = some .tainted

instance (deps : Dependencies δ) (name : String) : Decidable (deps.Tainted name) :=
  inferInstanceAs (Decidable (_ = _))

/-- A leaf is tainted if its record says so. -/
theorem tainted_iff :
    deps.Tainted name ↔ ∃ record, deps.find? name = some record ∧ record.level = .tainted :=
  Option.map_eq_some_iff

@[simp] theorem not_tainted_empty : ¬ (∅ : Dependencies δ).Tainted name := nofun

@[simp] theorem tainted_single {record : Record δ} :
    (single name record).Tainted leaf ↔ leaf = name ∧ record.level = .tainted := by
  rw [tainted_iff, single]
  simp only [Table.find?_insert]
  split
  · rename_i same
    simp [same]
  · rename_i other
    simp [other, Table.find?_empty]

/-- A change of records that keeps their levels keeps what is tainted. -/
theorem tainted_mapValues {change : Record δ -> Record δ}
    (kept : forall record, (change record).level = record.level) :
    Tainted (deps.mapValues change) name ↔ deps.Tainted name := by
  have levels : Record.level ∘ change = Record.level := funext kept
  rw [Tainted, Table.find?_mapValues, Option.map_map, levels, Tainted]

/-- A merge is tainted at a leaf if one of its parts is. -/
theorem tainted_merge :
    (merge parts).Tainted name ↔ ∃ part, part ∈ parts ∧ part.Tainted name := by
  have gathers : Gathers True (merge parts) fun name flow =>
      ∃ part, part ∈ parts ∧ part.find? name = some flow :=
    .merge (List.forall₂_same.2 fun _ _ => .self)
  constructor
  · intro tainted
    obtain ⟨total, found, level⟩ := tainted_iff.1 tainted
    obtain ⟨flow, ⟨part, member, listed⟩, same⟩ := (gathers.totals name total found).attained
    exact ⟨part, member, tainted_iff.2 ⟨flow, listed, same.trans level⟩⟩
  · rintro ⟨part, member, tainted⟩
    obtain ⟨flow, listed, level⟩ := tainted_iff.1 tainted
    have present := (gathers.leaves name).2 ⟨flow, part, member, listed⟩
    obtain ⟨total, found⟩ := (Table.mem_keys_iff _ name).1 present
    have attained := (gathers.totals name total found).rank_le flow ⟨part, member, listed⟩
    have highest : total.level.rank <= Level.tainted.rank := by cases total.level <;> decide
    rw [level] at attained
    exact tainted_iff.2 ⟨total, found, Level.eq_of_rank_eq (Nat.le_antisymm highest attained)⟩

end Dependencies

namespace Flow

open Scopes Syntax Rules

/-- The name under which the value of a call that returns untrusted input is
reported. -/
def inputName? (rules : RuleSet) (node : Node) : Option String :=
  match node.form with
  | .call =>
      match calleeOf rules node with
      | .input name => some (name ++ "()")
      | _ => none
  | _ => none

/-- A leaf has no parts. -/
theorem valueParts_of_leaf {rules : RuleSet} {node : Node} {own : String}
    (isLeaf : leafName? rules node = some own) : valueParts rules node = [] := by
  unfold leafName? at isLeaf
  unfold valueParts
  split at isLeaf
  · rename_i form
    rw [form]
  · rename_i form
    rw [form]
    simp only
    split at isLeaf
    · rename_i callee
      rw [callee]
    · rename_i callee
      rw [callee]
    · cases isLeaf
  · cases isLeaf

/-- Untrusted input is a leaf. -/
theorem leafName?_of_inputName? {rules : RuleSet} {node : Node} {name : String}
    (named : inputName? rules node = some name) : leafName? rules node = some name := by
  unfold inputName? at named
  unfold leafName?
  split at named
  · rename_i form
    rw [form]
    simp only
    split at named
    · rename_i callee
      rw [callee]
      exact named
    · cases named
  · cases named

/-- A site at which untrusted input enters, and the name of the input. -/
inductive InputSite (program : Program) : Site -> String -> Prop where
  /-- A call of a function that returns untrusted input. -/
  | call {node : Node} {name : String} (named : inputName? program.rules node = some name) :
      InputSite program (.expression node) name
  /-- An input variable that is read. -/
  | read {node : Node} (isVariable : node.form = .variableName)
      (isInput : program.rules.isInputVariable node.text = true) :
      InputSite program (.expression node) node.text
  /-- An input variable of which a part is written. -/
  | former {name : String} {definition start : Node} (keeps : KeepsFormer definition start)
      (isInput : program.rules.isInputVariable start.text = true) :
      InputSite program (.variable name (.referent definition)) start.text

/-- What a search looks for. -/
inductive Quest where
  /-- The leaves of a value. -/
  | leaves
  /-- The leaves that derive from untrusted input. -/
  | inputs

namespace Quest

/-- Dependencies show a name that is looked for. -/
def Shows : Quest -> Deps -> String -> Prop
  | .leaves, deps, name => name ∈ deps.keys
  | .inputs, deps, name => deps.Tainted name

/-- One of several results shows a name that is looked for. -/
def ShownIn (quest : Quest) (results : List Deps) (name : String) : Prop :=
  ∃ deps, deps ∈ results ∧ quest.Shows deps name

/-- A name that is looked for lies at a site. -/
def LiesAt (program : Program) : Quest -> Site -> String -> Prop
  | .leaves => LeafSite program
  | .inputs => InputSite program

/-- The name that lies at an expression other than a variable. -/
def ownName? (rules : RuleSet) : Quest -> Node -> Option String
  | .leaves => leafName? rules
  | .inputs => inputName? rules

variable {quest : Quest} {program : Program} {rules : RuleSet} {node : Node} {name leaf : String}

section Results

variable {deps : Deps} {results : List Deps} {record : LeafRecord}

/-- Nothing is shown by dependencies without leaves. -/
theorem not_shows_empty : ¬ quest.Shows ∅ name := by
  cases quest with
  | leaves => exact List.not_mem_nil
  | inputs => exact Dependencies.not_tainted_empty

/-- Merged results show what one of them shows. -/
theorem shows_merge : quest.Shows (Dependencies.merge results) name ↔ quest.ShownIn results name := by
  cases quest with
  | leaves => exact Dependencies.mem_keys_merge
  | inputs => exact Dependencies.tainted_merge

/-- One more result shows what it shows besides the others. -/
theorem shownIn_append_singleton :
    quest.ShownIn (results ++ [deps]) name ↔ quest.ShownIn results name ∨ quest.Shows deps name := by
  simp [ShownIn, or_and_right, exists_or]

/-- A record of untrusted input is looked for in either way. -/
theorem shows_single_of_tainted (tainted : record.level = .tainted) :
    quest.Shows (Dependencies.single name record) leaf ↔ leaf = name := by
  cases quest with
  | leaves => exact List.mem_singleton
  | inputs => simp [Shows, tainted]

/-- Any other record is shown among the leaves only. -/
theorem shows_single_of_not_tainted (untainted : record.level ≠ .tainted) :
    quest.Shows (Dependencies.single name record) leaf ↔ quest = .leaves ∧ leaf = name := by
  cases quest with
  | leaves => exact List.mem_singleton.trans (and_iff_right rfl).symm
  | inputs => simp [Shows, untainted]

/-- A leaf of unknown origin is shown to a search for leaves only. -/
theorem shows_unknownLeaf {definition : Option (Binding Node)} :
    quest.Shows (unknownLeaf name definition) leaf ↔ quest = .leaves ∧ leaf = name :=
  shows_single_of_not_tainted nofun

/-- A function acts on the leaves and changes neither their names nor their levels. -/
theorem shows_applyFunction {function : String} :
    quest.Shows (applyFunction rules deps function) name ↔ quest.Shows deps name := by
  cases quest with
  | leaves =>
      show name ∈ (applyFunction rules deps function).keys ↔ name ∈ deps.keys
      rw [keys_applyFunction]
  | inputs =>
      show (applyFunction rules deps function).Tainted name ↔ deps.Tainted name
      unfold applyFunction
      simp only
      split
      · exact Dependencies.tainted_mapValues fun _ => rfl
      · split
        · exact Dependencies.tainted_mapValues fun _ => rfl
        · exact Iff.rfl

/-- An expression that is a leaf shows what lies there. -/
theorem shows_joinParts_of_leaf {own : String} (isLeaf : leafName? rules node = some own) :
    quest.Shows (joinParts rules node results) name ↔ quest.ownName? rules node = some name := by
  unfold leafName? at isLeaf
  unfold joinParts
  cases form : node.form with
  | dynamicVariable =>
      refine shows_unknownLeaf.trans ?_
      cases quest <;> simp [ownName?, leafName?, inputName?, form, eq_comm]
  | call =>
      rw [form] at isLeaf
      simp only at isLeaf ⊢
      cases callee : calleeOf rules node with
      | dynamic text =>
          refine shows_unknownLeaf.trans ?_
          cases quest <;> simp [ownName?, leafName?, inputName?, form, callee, eq_comm]
      | input text =>
          refine (shows_single_of_tainted rfl).trans ?_
          cases quest <;> simp [ownName?, leafName?, inputName?, form, callee, eq_comm]
      | named target =>
          rw [callee] at isLeaf
          cases isLeaf
  | literal | variableName | operands | unary | array | container | staticProperty | methodCall
  | conditional | cast | interpolated | argument | other | assignment =>
      rw [form] at isLeaf
      cases isLeaf

/-- Any other expression shows what its parts show. -/
theorem shows_joinParts_of_inner (inner : leafName? rules node = none) :
    quest.Shows (joinParts rules node results) name ↔ quest.ShownIn results name := by
  unfold leafName? at inner
  unfold joinParts
  cases form : node.form with
  | dynamicVariable =>
      rw [form] at inner
      cases inner
  | call =>
      rw [form] at inner
      simp only at inner ⊢
      cases callee : calleeOf rules node with
      | dynamic text | input own =>
          rw [callee] at inner
          cases inner
      | named target =>
          rw [shows_merge]
          simp only [ShownIn, List.mem_map, exists_exists_and_eq_and, shows_applyFunction]
  | assignment =>
      rw [shows_merge]
      simp only [ShownIn, List.mem_reverse]
  | literal | variableName | operands | unary | array | container | staticProperty | methodCall
  | conditional | cast | interpolated | argument | other => exact shows_merge

end Results

section Sites

/-- What has parts is nothing that is looked for. -/
theorem ownName?_eq_none (inner : leafName? rules node = none) :
    quest.ownName? rules node = none := by
  cases quest with
  | leaves => exact inner
  | inputs =>
      refine Option.eq_none_iff_forall_ne_some.2 fun name named => ?_
      cases inner.symm.trans (leafName?_of_inputName? named)

/-- What lies at an expression that is no variable is its own name. -/
theorem liesAt_expression_iff (notVariable : node.form ≠ .variableName) :
    quest.LiesAt program (.expression node) name ↔
      quest.ownName? program.rules node = some name := by
  cases quest with
  | leaves =>
      refine ⟨fun lies => ?_, .expression⟩
      cases lies with
      | expression named => exact named
      | input isVariable _ => exact absurd isVariable notVariable
      | unbound reads => exact absurd reads.isVariable notVariable
  | inputs =>
      refine ⟨fun lies => ?_, .call⟩
      cases lies with
      | call named => exact named
      | read isVariable _ => exact absurd isVariable notVariable

/-- A variable has no name of its own: what it holds is found through its binding. -/
theorem ownName?_of_isVariable (quest : Quest) (rules : RuleSet)
    (isVariable : node.form = .variableName) : quest.ownName? rules node = none :=
  ownName?_eq_none (by simp [leafName?, isVariable])

/-- An input lies where its variable is read. -/
theorem liesAt_input_iff (isVariable : node.form = .variableName)
    (isInput : program.rules.isInputVariable node.text = true) :
    quest.LiesAt program (.expression node) name ↔ name = node.text := by
  have unnamed := ownName?_of_isVariable quest program.rules isVariable
  cases quest with
  | leaves =>
      refine ⟨fun lies => ?_, fun same => same ▸ .input isVariable isInput⟩
      cases lies with
      | expression named => cases unnamed.symm.trans named
      | input | unbound => rfl
  | inputs =>
      refine ⟨fun lies => ?_, fun same => same ▸ .read isVariable isInput⟩
      cases lies with
      | call named => cases unnamed.symm.trans named
      | read => rfl

/-- A variable that is no input is a leaf where it has no binding. -/
theorem liesAt_read_iff (isVariable : node.form = .variableName)
    (notInput : program.rules.isInputVariable node.text = false) :
    quest.LiesAt program (.expression node) name ↔
      quest = .leaves ∧ name = node.text ∧ ReadsBinding program node none := by
  have unnamed := ownName?_of_isVariable quest program.rules isVariable
  cases quest with
  | leaves =>
      refine ⟨fun lies => ?_, ?_⟩
      · cases lies with
        | expression named => cases unnamed.symm.trans named
        | input _ isInput => cases notInput.symm.trans isInput
        | unbound reads => exact ⟨rfl, rfl, reads⟩
      · rintro ⟨_, rfl, reads⟩
        exact .unbound reads
  | inputs =>
      refine ⟨fun lies => ?_, nofun⟩
      cases lies with
      | call named => cases unnamed.symm.trans named
      | read _ isInput => cases notInput.symm.trans isInput

/-- An input of which a part is written lies at the definition that keeps it. -/
theorem liesAt_definition_iff {definition : Node} :
    quest.LiesAt program (.variable name (.referent definition)) leaf ↔
      ∃ start, KeepsFormer definition start ∧
        program.rules.isInputVariable start.text = true ∧ leaf = start.text := by
  constructor
  · intro lies
    cases quest <;> cases lies with
    | former keeps isInput => exact ⟨_, keeps, isInput, rfl⟩
  · rintro ⟨start, keeps, isInput, rfl⟩
    cases quest with
    | leaves => exact .former keeps isInput
    | inputs => exact .former keeps isInput

/-- A variable whose binding is followed to no definition shows what lies there. -/
theorem shows_of_bindingOrigin {binding : Binding Node} {deps : Deps}
    (settled : followedBinding program.registry binding = binding)
    (origin : bindingOrigin [] name binding = .leaf deps) :
    quest.Shows deps leaf ↔ quest.LiesAt program (.variable name binding) leaf := by
  have shown : quest.Shows deps leaf ↔ quest = .leaves ∧ leaf = name := by
    cases binding with
    | referent node => cases origin
    | parameter | superglobal | globalReference | unset =>
        cases origin
        exact shows_unknownLeaf
  rw [shown]
  cases quest with
  | leaves => exact (and_iff_right rfl).trans (leafSite_iff_of_bindingOrigin settled origin).symm
  | inputs =>
      refine ⟨nofun, fun lies => ?_⟩
      cases lies with
      | former => cases origin

/-- Nothing lies at a reference that is followed. -/
theorem not_liesAt_of_followedBinding {binding : Binding Node}
    (leads : followedBinding program.registry binding ≠ binding) :
    ¬ quest.LiesAt program (.variable name binding) leaf := by
  obtain ⟨followed, final⟩ := (followedBinding_cases program.registry binding).resolve_left leads
  intro lies
  cases quest with
  | leaves =>
      cases lies with
      | reference stuck => cases final.symm.trans (stuck _ followed)
      | parameter | superglobal | ended | former => cases followed
  | inputs =>
      cases lies with
      | former => cases followed

end Sites

end Quest

end Flow

end PhpTaint
