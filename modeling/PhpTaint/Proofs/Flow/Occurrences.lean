import Mathlib.Data.List.Induction
import PhpTaint.Proofs.Flow.Returns
import PhpTaint.Proofs.Text.Case

/-!
# Occurrences of leaves

A leaf can occur in several places of one expression, each time inside other calls.
The calls around an occurrence treat it from the inside out: a sanitizer is added, a
function that undoes a sanitizer takes it away again. Tracing does not visit one
occurrence after the other, it merges what it knows of a leaf at every node. For an
elementary expression both come to the same: the record of a leaf is a quantification
over its occurrences.
-/

namespace PhpTaint.Flow

open Scopes Syntax Rules

/-! ## What calls do to a leaf -/

/-- A function that is no sanitizer takes a sanitizer away. -/
def Undoes (rules : RuleSet) (function sanitizer : String) : Prop :=
  rules.isSanitizer function = false ∧ rules.undoneBy? function = some sanitizer

/-- What some calls have done to a leaf. -/
structure Treatment where
  /-- The sanitizers that were added and not taken away again. -/
  applied : NameSet
  /-- The sanitizers that were taken away. -/
  undone : NameSet

namespace Treatment

/-- The treatment after one more call. -/
def through (rules : RuleSet) (treatment : Treatment) (function : String) : Treatment :=
  if rules.isSanitizer function then
    { treatment with applied := treatment.applied.insert (normalizeName function) }
  else
    match rules.undoneBy? function with
    | some sanitizer =>
        ⟨treatment.applied.erase sanitizer, treatment.undone.insert sanitizer⟩
    | none => treatment

/-- The treatment by some calls, from the inside out. -/
def ofCalls (rules : RuleSet) (functions : List String) : Treatment :=
  functions.foldl (through rules) ⟨∅, ∅⟩

variable {rules : RuleSet} {treatment : Treatment} {function sanitizer : String}
  {functions : List String}

/-- The outermost call treats what the inner ones have left. -/
theorem ofCalls_append_singleton :
    ofCalls rules (functions ++ [function]) = (ofCalls rules functions).through rules function :=
  List.foldl_concat ..

/-- A sanitizer is applied by its own function, or was applied and is not undone. -/
theorem mem_through_applied :
    sanitizer ∈ (treatment.through rules function).applied ↔
      (rules.isSanitizer function = true ∧ normalizeName function = sanitizer) ∨
        (sanitizer ∈ treatment.applied ∧ ¬ Undoes rules function sanitizer) := by
  unfold through Undoes
  cases isSanitizer : rules.isSanitizer function with
  | true => simp [eq_comm]
  | false =>
      cases undone : rules.undoneBy? function with
      | none => simp
      | some other => simp [eq_comm]

/-- A sanitizer is left by some calls exactly if one of them adds it and none further
out takes it away. -/
theorem mem_applied_iff :
    sanitizer ∈ (ofCalls rules functions).applied ↔
      ∃ inner function outer, functions = inner ++ function :: outer ∧
        rules.isSanitizer function = true ∧ normalizeName function = sanitizer ∧
        forall other, other ∈ outer -> ¬ Undoes rules other sanitizer := by
  induction functions using List.reverseRecOn with
  | nil => simp [ofCalls]
  | append_singleton functions last inductionHypothesis =>
      rw [ofCalls_append_singleton, mem_through_applied, inductionHypothesis]
      constructor
      · rintro (⟨isSanitizer, same⟩ | ⟨⟨inner, function, outer, rfl, added, same, kept⟩, harmless⟩)
        · exact ⟨functions, last, [], rfl, isSanitizer, same, nofun⟩
        · refine ⟨inner, function, outer ++ [last], by simp, added, same, ?_⟩
          intro other member
          rcases List.mem_append.1 member with earlier | here
          · exact kept other earlier
          · exact List.mem_singleton.1 here ▸ harmless
      · rintro ⟨inner, function, outer, split, added, same, kept⟩
        rcases List.eq_nil_or_concat outer with rfl | ⟨earlier, final, rfl⟩
        · obtain ⟨-, here⟩ := List.append_inj' split rfl
          obtain rfl := List.singleton_inj.1 here
          exact Or.inl ⟨added, same⟩
        · have regrouped : functions ++ [last] = (inner ++ function :: earlier) ++ [final] := by
            simpa using split
          obtain ⟨rfl, here⟩ := List.append_inj' regrouped rfl
          obtain rfl := List.singleton_inj.1 here
          refine Or.inr ⟨⟨inner, function, earlier, rfl, added, same, ?_⟩, ?_⟩
          · exact fun other member => kept other (by simp [member])
          · exact kept last (by simp)

end Treatment

/-! ## Occurrences -/

/-- One occurrence of a leaf in the value of an expression. -/
structure Occurrence where
  leaf : String
  level : Level
  /-- The functions that are called around it, from the inside out. -/
  functions : List String
  deriving DecidableEq, Repr

/-- The function that an expression calls by name, if it does. -/
def calledNames (rules : RuleSet) (node : Node) : List String :=
  match node.form with
  | .call =>
      match calleeOf rules node with
      | .named callee => [callee.text]
      | _ => []
  | _ => []

/-- An occurrence of an expression, seen from an expression that it is a part of. -/
def Occurrence.within (rules : RuleSet) (node : Node) (occurrence : Occurrence) : Occurrence :=
  { occurrence with functions := occurrence.functions ++ calledNames rules node }

/-- The occurrences of leaves in the value of an expression whose variables are
inputs. -/
inductive Occurs (rules : RuleSet) : Node -> Occurrence -> Prop where
  /-- An input variable. -/
  | input {node : Node} (isVariable : node.form = .variableName)
      (isInput : rules.isInputVariable node.text = true) : Occurs rules node ⟨node.text, .tainted, []⟩
  /-- The leaf that the expression is by itself. -/
  | own {node : Node} {name : String} {record : LeafRecord}
      (leaf : ownLeaf? rules node = some (name, record)) : Occurs rules node ⟨name, record.level, []⟩
  /-- An occurrence in a part. -/
  | part {node part : Node} {occurrence : Occurrence} (member : part ∈ valueParts rules node)
      (occurs : Occurs rules part occurrence) : Occurs rules node (occurrence.within rules node)

/-- The occurrences in expressions of at most the given height. -/
def occurrencesWithin (rules : RuleSet) : Nat -> Node -> List Occurrence
  | 0, _ => []
  | height + 1, node =>
      let input := if node.form = .variableName && rules.isInputVariable node.text then
          [⟨node.text, .tainted, []⟩] else []
      let own := (ownLeaf? rules node).toList.map fun leaf => ⟨leaf.1, leaf.2.level, []⟩
      let inParts := (valueParts rules node).flatMap fun part =>
        (occurrencesWithin rules height part).map (Occurrence.within rules node)
      input ++ own ++ inParts

variable {rules : RuleSet} {node : Node} {occurrence : Occurrence}

/-- The occurrences are listed in full from the height of the expression on. -/
theorem mem_occurrencesWithin {height : Nat} (high : node.tree.height <= height) :
    occurrence ∈ occurrencesWithin rules height node ↔ Occurs rules node occurrence := by
  induction height generalizing node occurrence with
  | zero =>
      have := node.tree.height_pos
      omega
  | succ height inductionHypothesis =>
      have parts : forall part, part ∈ valueParts rules node -> part.tree.height <= height := by
        intro part member
        have := (inside_of_mem_valueParts member).lower
        omega
      simp only [occurrencesWithin, List.mem_append, List.mem_flatMap, List.mem_map,
        Option.mem_toList]
      constructor
      · rintro ((input | ⟨leaf, own, rfl⟩) | ⟨part, member, inner, listed, rfl⟩)
        · split at input
          · rename_i holds
            simp only [Bool.and_eq_true, decide_eq_true_eq] at holds
            obtain rfl := List.mem_singleton.1 input
            exact .input holds.1 holds.2
          · cases input
        · exact .own own
        · exact .part member ((inductionHypothesis (parts part member)).1 listed)
      · intro occurs
        cases occurs with
        | input isVariable isInput => exact Or.inl (Or.inl (by simp [isVariable, isInput]))
        | own leaf => exact Or.inl (Or.inr ⟨_, leaf, rfl⟩)
        | part member occurs =>
            exact Or.inr ⟨_, member, _, (inductionHypothesis (parts _ member)).2 occurs, rfl⟩

/-- The occurrences in an expression. -/
def occurrences (rules : RuleSet) (node : Node) : List Occurrence :=
  occurrencesWithin rules node.tree.height node

/-- The occurrences of an expression are listed in full. -/
theorem mem_occurrences : occurrence ∈ occurrences rules node ↔ Occurs rules node occurrence :=
  mem_occurrencesWithin (Nat.le_refl _)

/-! ## Occurrences and flows -/

/-- A record shows a treatment. -/
structure Bears (record : LeafRecord) (treatment : Treatment) : Prop where
  sanitizers : record.sanitizers = treatment.applied
  common : record.common = treatment.applied
  revoked : record.revoked = treatment.undone

theorem isSanitizer_normalizeName (function : String) :
    rules.isSanitizer (normalizeName function) = rules.isSanitizer function := by
  unfold RuleSet.isSanitizer RuleSet.sanitizer?
  rw [normalizeName_normalizeName]

theorem undoneBy?_normalizeName (function : String) :
    rules.undoneBy? (normalizeName function) = rules.undoneBy? function := by
  unfold RuleSet.undoneBy?
  rw [normalizeName_normalizeName]

/-- A function takes the same step under its normal spelling. -/
theorem functionStep_normalizeName (function : String) :
    functionStep rules (normalizeName function) = functionStep rules function := by
  unfold functionStep
  rw [normalizeName_normalizeName]

/-- What an expression does to the flows from its parts is what the call does that it
may be. -/
theorem nodeStep_cases (rules : RuleSet) (node : Node) :
    (∃ function, calledNames rules node = [function] ∧
      nodeStep rules node = functionStep rules function) ∨
    (calledNames rules node = [] ∧ nodeStep rules node = Record.idle) := by
  unfold calledNames nodeStep
  cases node.form with
  | call =>
      cases calleeOf rules node with
      | named callee => exact Or.inl ⟨callee.text, rfl, functionStep_normalizeName callee.text⟩
      | dynamic text => exact Or.inr ⟨rfl, rfl⟩
      | input name => exact Or.inr ⟨rfl, rfl⟩
  | _ => exact Or.inr ⟨rfl, rfl⟩

/-- The leaf that an expression is by itself is a record on which nothing has acted. -/
theorem leaf_of_ownLeaf? {name : String} {record : LeafRecord}
    (own : ownLeaf? rules node = some (name, record)) :
    ∃ level definition, record = Record.leaf name level definition := by
  unfold ownLeaf? at own
  split at own
  · cases own
    exact ⟨_, _, rfl⟩
  · split at own
    · cases own
      exact ⟨_, _, rfl⟩
    · cases own
      exact ⟨_, _, rfl⟩
    · cases own
  · cases own

namespace Bears

variable {record : LeafRecord} {treatment : Treatment}

/-- A leaf bears no treatment. -/
theorem leaf (name : String) (level : Level) (definition : Option (Binding Node)) :
    Bears (Record.leaf name level definition) ⟨∅, ∅⟩ := ⟨rfl, rfl, rfl⟩

/-- A call does to a record what it does to a treatment. -/
theorem through (bears : Bears record treatment) (function : String) :
    Bears (record.passedThrough (functionStep rules function))
      (treatment.through rules function) := by
  obtain ⟨sanitizers, common, revoked⟩ := bears
  unfold functionStep Treatment.through
  simp only [isSanitizer_normalizeName, undoneBy?_normalizeName]
  cases rules.isSanitizer function with
  | true =>
      simp only [if_true, ← Record.withSanitizer_eq]
      exact ⟨congrArg (NameSet.insert · _) sanitizers, congrArg (NameSet.insert · _) common, revoked⟩
  | false =>
      cases rules.undoneBy? function with
      | some sanitizer =>
          simp only [Bool.false_eq_true, if_false, ← Record.withoutSanitizer_eq]
          exact ⟨congrArg (NameSet.erase · _) sanitizers, congrArg (NameSet.erase · _) common,
            congrArg (NameSet.insert · _) revoked⟩
      | none =>
          simp only [Bool.false_eq_true, if_false, Record.idle, Record.passedThrough_unassigned]
          exact ⟨sanitizers, common, revoked⟩

/-- An expression does to a record of a part what the call that it may be does. -/
theorem within {functions : List String} (bears : Bears record (.ofCalls rules functions))
    (node : Node) :
    Bears (record.passedThrough (nodeStep rules node))
      (.ofCalls rules (functions ++ calledNames rules node)) := by
  rcases nodeStep_cases rules node with ⟨function, called, step⟩ | ⟨called, step⟩
  · rw [called, step, Treatment.ofCalls_append_singleton]
    exact bears.through function
  · rw [called, step, List.append_nil, Record.idle, Record.passedThrough_unassigned]
    exact bears

end Bears

variable {program : Program} {owner : ScopeId} {name : String} {flow : LeafRecord}

/-- A flow arrives from every occurrence, as the calls around it have treated it. -/
theorem Occurs.arrives (occurs : Occurs rules node occurrence) (owner : ScopeId) :
    ∃ flow, Arrives rules owner (parameterStore []) node occurrence.leaf flow ∧
      flow.level = occurrence.level ∧ Bears flow (.ofCalls rules occurrence.functions) := by
  induction occurs with
  | @input node isVariable isInput =>
      refine ⟨Record.leaf node.text .tainted ((superglobals owner).find? node.text),
        .read isVariable ?_, rfl, .leaf ..⟩
      simp only [Forward.variableValue, isInput, if_true]
      exact Table.find?_insert_self ..
  | @own node name record leaf =>
      obtain ⟨level, definition, rfl⟩ := leaf_of_ownLeaf? leaf
      exact ⟨_, .own leaf, rfl, .leaf ..⟩
  | @part node part occurrence member occurs inductionHypothesis =>
      obtain ⟨flow, arrives, level, bears⟩ := inductionHypothesis
      exact ⟨_, .part member arrives, level, bears.within node⟩

/-- Every flow that arrives at an elementary expression comes from an occurrence. -/
theorem Arrives.occurs (elementary : Elementary program [] node)
    (arrives : Arrives program.rules owner (parameterStore []) node name flow) :
    ∃ functions, Occurs program.rules node ⟨name, flow.level, functions⟩ ∧
      Bears flow (.ofCalls program.rules functions) := by
  induction arrives with
  | @read node name flow isVariable found =>
      cases elementary with
      | parameter _ listed => cases listed
      | input _ isInput _ =>
          simp only [Forward.variableValue, isInput, if_true, Dependencies.single] at found
          rw [Table.find?_insert] at found
          split at found
          · rename_i same
            cases found
            subst same
            exact ⟨[], .input isVariable isInput, .leaf ..⟩
          · cases found
      | compound notVariable => exact absurd isVariable notVariable
  | @own node name flow leaf =>
      obtain ⟨level, definition, rfl⟩ := leaf_of_ownLeaf? leaf
      exact ⟨[], .own leaf, .leaf ..⟩
  | @part node part name flow member arrives inductionHypothesis =>
      cases elementary with
      | parameter isVariable _ => simp [valueParts, isVariable] at member
      | input isVariable _ _ => simp [valueParts, isVariable] at member
      | compound _ _ _ _ parts =>
          obtain ⟨functions, occurs, bears⟩ := inductionHypothesis (parts part member)
          exact ⟨_, .part member occurs, bears.within node⟩

/-! ## Dependencies and occurrences -/

/-- The record of a leaf is a quantification over the occurrences of the leaf. -/
structure Records (rules : RuleSet) (node : Node) (record : LeafRecord) (name : String) : Prop where
  rank_le : forall occurrence, Occurs rules node occurrence -> occurrence.leaf = name ->
    occurrence.level.rank <= record.level.rank
  attained : ∃ occurrence, Occurs rules node occurrence ∧ occurrence.leaf = name ∧
    occurrence.level = record.level
  sanitizers : forall sanitizer, sanitizer ∈ record.sanitizers ↔
    ∃ occurrence, Occurs rules node occurrence ∧ occurrence.leaf = name ∧
      sanitizer ∈ (Treatment.ofCalls rules occurrence.functions).applied
  common : forall sanitizer, sanitizer ∈ record.common ↔
    forall occurrence, Occurs rules node occurrence -> occurrence.leaf = name ->
      sanitizer ∈ (Treatment.ofCalls rules occurrence.functions).applied
  revoked : forall sanitizer, sanitizer ∈ record.revoked ↔
    ∃ occurrence, Occurs rules node occurrence ∧ occurrence.leaf = name ∧
      sanitizer ∈ (Treatment.ofCalls rules occurrence.functions).undone

/-- Dependencies have the leaves that occur in an expression, and their records. -/
structure Collects (rules : RuleSet) (node : Node) (deps : Deps) : Prop where
  leaves : forall name, name ∈ deps.keys ↔
    ∃ occurrence, Occurs rules node occurrence ∧ occurrence.leaf = name
  records : forall name record, deps.find? name = some record -> Records rules node record name

/-- What gathers the flows to an elementary expression collects the occurrences in
it. -/
theorem Collects.of_gathers (elementary : Elementary program [] node) {deps : Deps}
    (gathers : Dependencies.Gathers True deps
      (Arrives program.rules owner (parameterStore []) node)) :
    Collects program.rules node deps := by
  refine ⟨?_, ?_⟩
  · intro name
    rw [gathers.leaves]
    constructor
    · rintro ⟨flow, arrives⟩
      obtain ⟨functions, occurs, _⟩ := arrives.occurs elementary
      exact ⟨_, occurs, rfl⟩
    · rintro ⟨occurrence, occurs, rfl⟩
      obtain ⟨flow, arrives, _⟩ := occurs.arrives owner
      exact ⟨flow, arrives⟩
  · intro name record found
    have totals := gathers.totals name record found
    refine ⟨?_, ?_, ?_, ?_, ?_⟩
    · rintro occurrence occurs rfl
      obtain ⟨flow, arrives, level, _⟩ := occurs.arrives owner
      exact level ▸ totals.rank_le flow arrives
    · obtain ⟨flow, arrives, level⟩ := totals.attained
      obtain ⟨functions, occurs, _⟩ := arrives.occurs elementary
      exact ⟨_, occurs, rfl, level⟩
    · intro sanitizer
      constructor
      · intro member
        obtain ⟨flow, arrives, listed⟩ := totals.sanitizers sanitizer member
        obtain ⟨functions, occurs, bears⟩ := arrives.occurs elementary
        exact ⟨_, occurs, rfl, bears.sanitizers ▸ listed⟩
      · rintro ⟨occurrence, occurs, rfl, applied⟩
        obtain ⟨flow, arrives, _, bears⟩ := occurs.arrives owner
        exact totals.allSanitizers trivial sanitizer ⟨flow, arrives, bears.sanitizers ▸ applied⟩
    · intro sanitizer
      constructor
      · rintro member occurrence occurs rfl
        obtain ⟨flow, arrives, _, bears⟩ := occurs.arrives owner
        exact bears.common ▸ totals.common sanitizer member flow arrives
      · intro every
        refine totals.allCommon trivial sanitizer fun flow arrives => ?_
        obtain ⟨functions, occurs, bears⟩ := arrives.occurs elementary
        exact bears.common ▸ every _ occurs rfl
    · intro sanitizer
      rw [totals.revoked]
      constructor
      · rintro ⟨flow, arrives, listed⟩
        obtain ⟨functions, occurs, bears⟩ := arrives.occurs elementary
        exact ⟨_, occurs, rfl, bears.revoked ▸ listed⟩
      · rintro ⟨occurrence, occurs, rfl, undone⟩
        obtain ⟨flow, arrives, _, bears⟩ := occurs.arrives owner
        exact ⟨flow, arrives, bears.revoked ▸ undone⟩

/-- A new tracer traces an elementary expression of annotated files to what occurs in
it, whatever the analysis has learned before. -/
theorem trace_collects {roots : List Node} {program : Program} {node : Node}
    (grounded : Grounded (nodesOf roots) program) (deep : program.depth = depthBound roots)
    (member : node ∈ nodesOf roots) (elementary : Elementary program [] node) (memory : Memory)
    (followsCalls : Bool) :
    Concludes program (memory.withTracer (Tracer.fresh [] followsCalls)) (trace node)
      (fun deps _ => Collects program.rules node deps) fun _ _ => False := by
  have flows := traceWithin_givesFlows grounded program.globalScope (by simp) elementary
    (Tracks.fresh memory [] followsCalls) (deep ▸ height_le_depthBound member)
  exact Concludes.mono flows (fun deps _ holds => .of_gathers elementary holds.1)
    fun _ _ never => never

end PhpTaint.Flow
