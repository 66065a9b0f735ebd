import PhpTaint.Proofs.Flow.Backward
import PhpTaint.Proofs.Flow.Binding
import PhpTaint.Proofs.Flow.Returns

/-!
# A summary stands for the body of its function

A call is answered from the summary of the function: what the return statements
depend on was merged before the arguments were known, and the arguments take the
place of the parameters afterwards. Inlining does it the other way round, it
evaluates the returned expressions with the arguments in the store.

For a function whose returned expressions are elementary both give the same
leaves with the same levels, and the summary never claims more sanitizers. It
claims as many if no returned expression undoes a sanitizer.
-/

namespace PhpTaint.Flow

open Scopes Syntax Rules Forward
open Dependencies (Flows Gathers StandsFor)

/-- The store that binds arguments to the parameters of a function. -/
def argumentStore (declaration : Node) (arguments : List Deps) : Store :=
  Table.empty.insertMany (declaration.parameterNames.zip arguments)

/-- What a function returns for some arguments if its body stands in the place of
the call. -/
def inlined (rules : RuleSet) (owner : ScopeId) (declaration : Node) (arguments : List Deps) :
    Deps :=
  Dependencies.merge
    ((returnedValues declaration).map (evaluate rules owner (argumentStore declaration arguments)))

/-- Whether an expression calls a function that undoes a sanitizer. -/
def callsReverse (rules : RuleSet) (node : Node) : Bool :=
  match node.form with
  | .call =>
      match calleeOf rules node with
      | .named callee => rules.isReverse (normalizeName (normalizeName callee.text))
      | _ => false
  | _ => false

/-- What becomes of a flow from a leaf of a summary at a call: a flow from a
parameter continues the flows of the argument. -/
def Replaced (parameters : List String) (store : Store) (name : String) (flow : LeafRecord) :
    Flows (Binding Node) := fun leaf result =>
  if name ∈ parameters then
    ∃ argument, ((store.find? name).getD ∅).find? leaf = some argument ∧
      result = argument.passedThrough flow
  else leaf = name ∧ result = flow

section Expressions

variable {program : Program} {owner : ScopeId} {parameters : List String} {store : Store}
  {node : Node} {name leaf : String} {flow result step : LeafRecord}

theorem replaced_passedThrough :
    Replaced parameters store name (flow.passedThrough step) leaf result ↔
      ∃ before, Replaced parameters store name flow leaf before ∧
        result = before.passedThrough step := by
  unfold Replaced
  split
  · constructor
    · rintro ⟨argument, found, rfl⟩
      exact ⟨_, ⟨argument, found, rfl⟩, (argument.passedThrough_passedThrough flow step).symm⟩
    · rintro ⟨_, ⟨argument, found, rfl⟩, rfl⟩
      exact ⟨argument, found, argument.passedThrough_passedThrough flow step⟩
  · constructor
    · rintro ⟨rfl, rfl⟩
      exact ⟨flow, ⟨rfl, rfl⟩, rfl⟩
    · rintro ⟨_, ⟨rfl, rfl⟩, rfl⟩
      exact ⟨rfl, rfl⟩

theorem arrives_parameter_iff (isVariable : node.form = .variableName)
    (listed : node.text ∈ parameters)
    (trusted : program.rules.isInputVariable node.text = false) :
    Arrives program.rules owner (parameterStore parameters) node name flow ↔
      name = node.text ∧ flow = Record.unassigned node.text := by
  rw [arrives_variable_iff isVariable, variableValue, trusted, parameterStore_find?,
    if_pos listed]
  simp only [Bool.false_eq_true, if_false, parameterLeaf, Dependencies.single]
  rw [Table.find?_insert]
  by_cases same : name = node.text
  · simp [same, eq_comm]
  · simp [same]

/-- The flows that arrive for given arguments are those of the summary, with the
arguments in the place of the parameters. -/
theorem arrives_iff_replaced
    (trusted : forall name, name ∈ parameters -> program.rules.isInputVariable name = false)
    (bound : forall name, name ∈ parameters -> ∃ deps, store.find? name = some deps)
    (elementary : Elementary program parameters node) :
    Arrives program.rules owner store node leaf result ↔
      ∃ name flow, Arrives program.rules owner (parameterStore parameters) node name flow ∧
        Replaced parameters store name flow leaf result := by
  induction elementary generalizing leaf result with
  | @parameter node isVariable listed =>
      obtain ⟨deps, found⟩ := bound _ listed
      rw [arrives_variable_iff isVariable, variableValue, trusted _ listed, found]
      constructor
      · intro arrives
        refine ⟨node.text, _,
          (arrives_parameter_iff isVariable listed (trusted _ listed)).2 ⟨rfl, rfl⟩, ?_⟩
        simpa [Replaced, listed, found] using arrives
      · rintro ⟨name, flow, arrives, replaced⟩
        obtain ⟨rfl, rfl⟩ := (arrives_parameter_iff isVariable listed (trusted _ listed)).1 arrives
        simpa [Replaced, listed, found] using replaced
  | @input node isVariable isInput located =>
      have unlisted : node.text ∉ parameters := by
        intro listed
        rw [trusted _ listed] at isInput
        cases isInput
      have same : forall store : Store, variableValue program.rules owner store node.text =
          Dependencies.single node.text
            (Record.leaf node.text .tainted ((superglobals owner).find? node.text)) := by
        intro store
        rw [variableValue, if_pos isInput]
      simp only [arrives_variable_iff isVariable, same]
      constructor
      · intro found
        have named : leaf = node.text := by
          simpa using (Table.mem_keys_iff _ leaf).2 ⟨result, found⟩
        subst named
        exact ⟨node.text, result, found, by simp [Replaced, unlisted]⟩
      · rintro ⟨name, flow, found, replaced⟩
        have named : name = node.text := by
          simpa using (Table.mem_keys_iff _ name).2 ⟨flow, found⟩
        subst named
        obtain ⟨rfl, rfl⟩ : leaf = node.text ∧ result = flow := by
          simpa [Replaced, unlisted] using replaced
        exact found
  | @compound node notVariable undeclared located apart parts inductionHypothesis =>
      simp only [arrives_compound_iff notVariable, joinedFlows]
      constructor
      · rintro (own | ⟨part, member, before, arrives, rfl⟩)
        · exact ⟨leaf, result, Or.inl own, by simp [Replaced, apart _ own]⟩
        · obtain ⟨name, flow, arrives, replaced⟩ :=
            (inductionHypothesis part member).1 arrives
          exact ⟨name, _, Or.inr ⟨part, member, flow, arrives, rfl⟩,
            replaced_passedThrough.2 ⟨before, replaced, rfl⟩⟩
      · rintro ⟨name, flow, own | ⟨part, member, before, arrives, rfl⟩, replaced⟩
        · obtain ⟨rfl, rfl⟩ : leaf = name ∧ result = flow := by
            simpa [Replaced, apart _ own] using replaced
          exact Or.inl own
        · obtain ⟨earlier, partly, rfl⟩ := replaced_passedThrough.1 replaced
          exact Or.inr ⟨part, member, earlier,
            (inductionHypothesis part member).2 ⟨name, before, arrives, partly⟩, rfl⟩

/-- Nothing is known of a parameter in a summary. -/
theorem level_of_arrives_parameter
    (trusted : forall name, name ∈ parameters -> program.rules.isInputVariable name = false)
    (elementary : Elementary program parameters node)
    (arrives : Arrives program.rules owner (parameterStore parameters) node name flow)
    (listed : name ∈ parameters) : flow.level = .unassigned := by
  induction elementary generalizing flow with
  | parameter isVariable isParameter =>
      obtain ⟨rfl, rfl⟩ :=
        (arrives_parameter_iff isVariable isParameter (trusted _ isParameter)).1 arrives
      rfl
  | @input node isVariable isInput located =>
      rw [arrives_variable_iff isVariable, variableValue, if_pos isInput] at arrives
      have named : name = node.text := by
        simpa using (Table.mem_keys_iff _ name).2 ⟨flow, arrives⟩
      rw [← named, trusted name listed] at isInput
      cases isInput
  | compound notVariable undeclared located apart parts inductionHypothesis =>
      rcases (arrives_compound_iff notVariable).1 arrives with
        own | ⟨part, member, before, earlier, rfl⟩
      · exact absurd listed (apart _ own)
      · have level : before.level = .unassigned := inductionHypothesis part member earlier
        exact level

/-- In a summary, a variable is a leaf on which nothing has acted. -/
theorem variableValue_parameterStore (rules : RuleSet) (owner : ScopeId)
    (parameters : List String) (name : String) :
    ∃ level definition, variableValue rules owner (parameterStore parameters) name =
      Dependencies.single name (Record.leaf name level definition) := by
  rw [variableValue, parameterStore_find?]
  split
  · exact ⟨_, _, rfl⟩
  · split
    · rename_i deps stored
      split at stored
      · cases stored
        exact ⟨_, _, rfl⟩
      · cases stored
    · exact ⟨_, _, rfl⟩

/-- The leaf that an expression is itself has nothing revoked. -/
theorem not_mem_revoked_of_ownLeaf? {rules : RuleSet}
    (own : ownLeaf? rules node = some (name, flow)) :
    forall sanitizer, sanitizer ∉ flow.revoked := by
  unfold ownLeaf? at own
  cases form : node.form with
  | dynamicVariable =>
      rw [form] at own
      cases own
      exact NameSet.not_mem_empty
  | call =>
      rw [form] at own
      simp only at own
      split at own
      · cases own
        exact NameSet.not_mem_empty
      · cases own
        exact NameSet.not_mem_empty
      · cases own
  | literal | variableName | operands | unary | array | container | staticProperty | methodCall
  | conditional | cast | interpolated | assignment | argument | other =>
      rw [form] at own
      cases own

/-- An expression other than a call of a function that undoes a sanitizer revokes
nothing itself. -/
theorem not_mem_revoked_nodeStep {rules : RuleSet} (plain : callsReverse rules node = false) :
    forall sanitizer, sanitizer ∉ (nodeStep rules node).revoked := by
  unfold callsReverse at plain
  unfold nodeStep
  split
  · rename_i isCall
    rw [isCall] at plain
    simp only at plain
    split
    · rename_i callee named
      rw [named] at plain
      simp only [RuleSet.isReverse, Option.isSome_eq_false_iff, Option.isNone_iff_eq_none] at plain
      unfold functionStep
      simp only [plain]
      split <;> exact NameSet.not_mem_empty
    · exact NameSet.not_mem_empty
  · exact NameSet.not_mem_empty

/-- An expression that calls no function that undoes a sanitizer revokes nothing. -/
theorem revoked_of_arrives {rules : RuleSet}
    (harmless : forall inner, inner ∈ node.preorder -> callsReverse rules inner = false)
    (arrives : Arrives rules owner (parameterStore parameters) node name flow) :
    forall sanitizer, sanitizer ∉ flow.revoked := by
  induction arrives with
  | @read node name flow isVariable found =>
      obtain ⟨level, definition, value⟩ :=
        variableValue_parameterStore rules owner parameters node.text
      rw [value, Dependencies.single, Table.find?_insert] at found
      split at found
      · cases found
        exact NameSet.not_mem_empty
      · cases found
  | own own => exact not_mem_revoked_of_ownLeaf? own
  | @part node part name flow member arrives inductionHypothesis =>
      have inside := inside_of_mem_valueParts member
      have earlier := inductionHypothesis fun inner below =>
        harmless inner (Node.Inside.of_mem_preorder below inside).mem_preorder
      intro sanitizer listed
      rcases NameSet.mem_union.1 listed with before | added
      · exact earlier sanitizer before
      · exact not_mem_revoked_nodeStep (harmless node node.self_mem_preorder) sanitizer added

end Expressions

section Substitution

variable {exact : Prop} {parameters : List String} {store : Store} {name : String}
  {record : LeafRecord} {summary : Summary}

/-- What a leaf of a summary becomes at a call, if it is not both a parameter and
something else. -/
def replacedLeaf (parameters : List String) (store : Store) (name : String)
    (record : LeafRecord) : Deps :=
  if name ∈ parameters then
    ((store.find? name).getD ∅).mapValues fun leaf => leaf.passedThrough record
  else Dependencies.single name record

theorem substituteLeaf_eq
    (unknown : name ∈ summary.parameterNames -> record.level = .unassigned) :
    substituteLeaf summary store name record =
      [replacedLeaf summary.parameterNames store name record] := by
  unfold substituteLeaf replacedLeaf
  by_cases listed : name ∈ summary.parameterNames
  · simp [listed, unknown listed]
  · simp [listed]

/-- A leaf that stands for some flows becomes what stands for the flows that they
become. -/
theorem replacedLeaf_gathers {flows : LeafRecord -> Prop} (totals : record.Totals True flows)
    (harmless : exact -> forall sanitizer, sanitizer ∉ record.revoked) :
    Gathers exact (replacedLeaf parameters store name record) fun leaf result =>
      ∃ flow, flows flow ∧ Replaced parameters store name flow leaf result := by
  unfold replacedLeaf Replaced
  by_cases listed : name ∈ parameters
  · simp only [listed, if_true]
    exact Gathers.through totals _ harmless
  · simp only [listed, if_false]
    refine (Gathers.single totals.weaken).congr fun leaf result => ?_
    constructor
    · rintro ⟨rfl, arrives⟩
      exact ⟨result, arrives, rfl, rfl⟩
    · rintro ⟨flow, arrives, rfl, rfl⟩
      exact ⟨rfl, arrives⟩

/-- Substituting arguments in a summary gathers what the flows of all lines become. -/
theorem substitute_gathers {flowsOn : Nat -> Flows (Binding Node)}
    (lines : GathersLines summary.returns flowsOn)
    (unknown : forall line name flow, flowsOn line name flow -> name ∈ summary.parameterNames ->
      flow.level = .unassigned)
    (harmless : exact -> forall line name flow, flowsOn line name flow ->
      forall sanitizer, sanitizer ∉ flow.revoked) :
    Gathers exact (substitute summary store) fun leaf result =>
      ∃ line name flow, flowsOn line name flow ∧
        Replaced summary.parameterNames store name flow leaf result := by
  let items : List (Nat × String × LeafRecord) :=
    summary.returns.entries.flatMap fun line => line.2.entries.map fun entry => (line.1, entry)
  have totals : forall item, item ∈ items ->
      item.2.2.Totals True (flowsOn item.1 item.2.1) := by
    intro item member
    obtain ⟨line, listed, inLine⟩ := List.mem_flatMap.1 member
    obtain ⟨entry, found, rfl⟩ := List.mem_map.1 inLine
    exact (lines.gathers line.1 line.2 (Table.find?_eq_some_of_mem listed)).totals entry.1 entry.2
      (Table.find?_eq_some_of_mem found)
  have merged : substitute summary store = Dependencies.merge (items.map fun item =>
      replacedLeaf summary.parameterNames store item.2.1 item.2.2) := by
    unfold substitute Table.values
    rw [List.flatMap_map, List.map_flatMap]
    congr 1
    refine List.flatMap_congr fun line listed => ?_
    rw [List.map_map, List.map_eq_flatMap]
    refine List.flatMap_congr fun entry found => ?_
    have member : (line.1, entry) ∈ items :=
      List.mem_flatMap.2 ⟨line, listed, List.mem_map.2 ⟨entry, found, rfl⟩⟩
    refine substituteLeaf_eq fun isParameter => ?_
    obtain ⟨flow, arrives, level⟩ := (totals _ member).attained
    exact level.symm.trans (unknown _ _ flow arrives isParameter)
  rw [merged]
  have each : forall item, item ∈ items ->
      Gathers exact (replacedLeaf summary.parameterNames store item.2.1 item.2.2)
        fun leaf result => ∃ flow, flowsOn item.1 item.2.1 flow ∧
          Replaced summary.parameterNames store item.2.1 flow leaf result := by
    intro item member
    refine replacedLeaf_gathers (totals item member) fun holds sanitizer listed => ?_
    obtain ⟨flow, arrives, revoked⟩ := ((totals item member).revoked sanitizer).1 listed
    exact harmless holds _ _ flow arrives sanitizer revoked
  refine (Gathers.merge_map each).congr fun leaf result => ?_
  constructor
  · rintro ⟨item, _, flow, arrives, replaced⟩
    exact ⟨item.1, item.2.1, flow, arrives, replaced⟩
  · rintro ⟨line, name, flow, arrives, replaced⟩
    obtain ⟨deps, found⟩ := lines.complete line name flow arrives
    obtain ⟨record, recorded⟩ := (Table.mem_keys_iff deps name).1
      (((lines.gathers line deps found).leaves name).2 ⟨flow, arrives⟩)
    refine ⟨(line, name, record), ?_, flow, arrives, replaced⟩
    exact List.mem_flatMap.2 ⟨(line, deps), Table.mem_of_find?_eq_some found,
      List.mem_map.2 ⟨(name, record), Table.mem_of_find?_eq_some recorded, rfl⟩⟩

end Substitution

section Binding

variable {program : Program} {memory after : Memory} {trace : Node -> Tracing Deps}
  {summary : Summary} {arguments values : List Node} {results : List Deps}

theorem length_of_mapM (traced : values.mapM trace program memory = .ok results after) :
    results.length = values.length := by
  induction values generalizing memory results with
  | nil =>
      cases traced
      rfl
  | cons value rest inductionHypothesis =>
      obtain ⟨deps, middle, others, _, later, rfl⟩ := mapM_cons_eq_ok.1 traced
      rw [List.length_cons, List.length_cons, inductionHypothesis later]

/-- Every parameter has an argument in the store. -/
theorem mem_keys_argumentStore {declaration : Node} {name : String}
    (count : results.length = declaration.parameters.length)
    (listed : name ∈ declaration.parameterNames) :
    name ∈ (argumentStore declaration results).keys := by
  have named : (declaration.parameterNames.zip results).map Prod.fst = declaration.parameterNames :=
    List.map_fst_zip (Nat.le_of_eq ((List.length_map ..).trans count.symm))
  refine Table.mem_keys_insertMany.2 (Or.inr ?_)
  rw [named]
  exact listed

/-- With one argument for each parameter, the arguments go to the parameters in
order. Only the last parameter may take more than one. -/
theorem receivers_eq_map {parameters done rest : List Node} {position : Nat}
    (split : parameters = done ++ rest) (here : rest ≠ [] -> position = done.length)
    (last : forall parameter, parameter ∈ rest.dropLast ->
      parameter.kind ≠ "variadic_parameter") :
    receivers parameters position rest.length =
      rest.map fun parameter => some parameter.parameterName := by
  induction rest generalizing done position with
  | nil => rfl
  | cons parameter rest inductionHypothesis =>
      have next : parameters[position]? = some parameter := by
        rw [split, here (List.cons_ne_nil _ _), List.getElem?_append_right (Nat.le_refl _),
          Nat.sub_self]
        rfl
      have shifted : parameters = (done ++ [parameter]) ++ rest := by
        rw [split, List.append_assoc, List.singleton_append]
      rw [List.length_cons, receivers, next, List.map_cons]
      simp only
      rw [inductionHypothesis shifted]
      · intro more
        have plain : parameter.kind ≠ "variadic_parameter" := by
          refine last parameter ?_
          rw [List.dropLast_cons_of_ne_nil more]
          exact List.mem_cons_self ..
        rw [if_neg plain, here (List.cons_ne_nil _ _), List.length_append, List.length_singleton]
      · intro other listed
        refine last other ?_
        have more : rest ≠ [] := by
          rintro rfl
          cases listed
        rw [List.dropLast_cons_of_ne_nil more]
        exact List.mem_cons_of_mem _ listed

/-- Parameters that are filled need no default value. -/
theorem fallbacks_eq_nil {names : List String} {parameters : List Node}
    (filled : forall parameter, parameter ∈ parameters -> parameter.parameterName ∈ names) :
    fallbacks names parameters = [] := by
  induction parameters with
  | nil => rfl
  | cons parameter rest inductionHypothesis =>
      have later := inductionHypothesis fun other listed =>
        filled other (List.mem_cons_of_mem _ listed)
      have here := List.contains_iff_mem.2 (filled parameter (List.mem_cons_self ..))
      rw [fallbacks]
      split
      · rw [if_pos here, later]
      · exact later

theorem traceHanded_zip {receiving : List (Option String)}
    (count : receiving.length = values.length)
    (traced : values.mapM trace program memory = .ok results after) :
    traceHanded trace (receiving.zip values) program memory = .ok (receiving.zip results) after := by
  induction values generalizing receiving memory results with
  | nil =>
      cases traced
      cases receiving with
      | nil => rfl
      | cons receiver rest => cases count
  | cons value rest inductionHypothesis =>
      obtain ⟨deps, middle, others, here, later, rfl⟩ := mapM_cons_eq_ok.1 traced
      cases receiving with
      | nil => cases count
      | cons receiver receiving =>
          refine mapM_cons_eq_ok.2 ⟨(receiver, deps), middle, _, ?_,
            inductionHypothesis (Nat.succ.inj count) later, rfl⟩
          rw [run_bind_ok here]
          rfl

/-- Parameters with distinct names are bound one by one. -/
theorem foldl_bindHanded_eq_insertMany {names : List String} {bound : Table String Deps}
    (distinct : names.Nodup) (free : forall name, name ∈ names -> bound.find? name = none) :
    ((names.map some).zip results).foldl bindHanded bound =
      bound.insertMany (names.zip results) := by
  induction names generalizing bound results with
  | nil => rfl
  | cons name rest inductionHypothesis =>
      cases results with
      | nil => rfl
      | cons deps results =>
          rw [List.nodup_cons] at distinct
          have step : bindHanded bound (some name, deps) = bound.insert name deps := by
            simp [bindHanded, bindName, free name (List.mem_cons_self ..)]
          rw [List.map_cons, List.zip_cons_cons, List.foldl_cons, step, List.zip_cons_cons]
          refine inductionHypothesis distinct.2 fun other listed => ?_
          have different : other ≠ name := fun same => distinct.1 (same ▸ listed)
          rw [Table.find?_insert_of_ne _ _ different]
          exact free other (List.mem_cons_of_mem _ listed)

/-- With one positional argument for each parameter, a call substitutes what the
arguments depend on. -/
theorem callDependencies_positional (positional : List.Forall₂ Positional arguments values)
    (count : values.length = summary.parameters.length)
    (last : forall parameter, parameter ∈ summary.parameters.dropLast ->
      parameter.kind ≠ "variadic_parameter")
    (distinct : summary.parameterNames.Nodup)
    (traced : values.mapM trace program memory = .ok results after) :
    callDependencies trace summary arguments program memory =
      .ok (substitute summary (argumentStore summary.declaration results)) after := by
  have ordered : receivers summary.declaration.parameters 0 values.length =
      summary.parameterNames.map some := by
    have inOrder := receivers_eq_map (List.nil_append summary.parameters).symm (fun _ => rfl) last
    rw [← count] at inOrder
    exact inOrder.trans (List.map_map ..).symm
  have handed : handedOver summary.declaration values =
      (summary.parameterNames.map some).zip values := by
    have none : fallbacks summary.parameterNames summary.declaration.parameters = [] :=
      fallbacks_eq_nil fun parameter listed => List.mem_map_of_mem listed
    simp [handedOver, ordered, none]
  have bound : bindArguments trace summary arguments program memory =
      .ok (argumentStore summary.declaration results) after := by
    have aligned : (summary.parameterNames.map some).length = values.length := by
      rw [List.length_map, count]
      exact List.length_map ..
    rw [bindArguments_handed positional (handed ▸ traceHanded_zip aligned traced),
      foldl_bindHanded_eq_insertMany distinct fun _ _ => rfl]
    rfl
  unfold callDependencies
  rw [run_bind_ok bound]
  rfl

end Binding

/-- With an argument for every parameter, a summary that gathers the flows of its
elementary returns gives what stands for inlining them. -/
theorem substitute_standsFor_inlined {program : Program} {owner : ScopeId} {summary : Summary}
    {results : List Deps}
    (trusted : forall name, name ∈ summary.declaration.parameterNames ->
      program.rules.isInputVariable name = false)
    (elementary : forall value, value ∈ returnedValues summary.declaration ->
      Elementary program summary.declaration.parameterNames value)
    (lines : GathersLines summary.returns (valueFlows program.rules owner
      summary.declaration.parameterNames (returnedOn summary.declaration)))
    (count : results.length = summary.declaration.parameters.length) :
    StandsFor (forall value, value ∈ returnedValues summary.declaration ->
        forall inner, inner ∈ value.preorder -> callsReverse program.rules inner = false)
      (substitute summary (argumentStore summary.declaration results))
      (inlined program.rules owner summary.declaration results) := by
  have bound : forall name, name ∈ summary.declaration.parameterNames ->
      ∃ deps, (argumentStore summary.declaration results).find? name = some deps :=
    fun name listed => (Table.mem_keys_iff _ name).1 (mem_keys_argumentStore count listed)
  have returned : forall line value, (line, value) ∈ returnedOn summary.declaration ->
      value ∈ returnedValues summary.declaration :=
    fun line value listed => List.mem_map.2 ⟨(line, value), listed, rfl⟩
  have inlines : Gathers True (inlined program.rules owner summary.declaration results)
      fun leaf result => ∃ value, value ∈ returnedValues summary.declaration ∧
        Arrives program.rules owner (argumentStore summary.declaration results) value
          leaf result :=
    Gathers.merge_map fun value _ => evaluate_gathers value
  refine Gathers.standsFor ?_ inlines
  refine (substitute_gathers lines ?_ ?_).congr fun leaf result => ?_
  · rintro line name flow ⟨value, listed, arrives⟩ isParameter
    exact level_of_arrives_parameter trusted (elementary value (returned line value listed)) arrives
      isParameter
  · rintro harmless line name flow ⟨value, listed, arrives⟩
    exact revoked_of_arrives (harmless value (returned line value listed)) arrives
  · constructor
    · rintro ⟨line, name, flow, ⟨value, listed, arrives⟩, replaced⟩
      have member := returned line value listed
      exact ⟨value, member, (arrives_iff_replaced trusted bound (elementary value member)).2
        ⟨name, flow, arrives, replaced⟩⟩
    · rintro ⟨value, member, arrives⟩
      obtain ⟨name, flow, arrives, replaced⟩ :=
        (arrives_iff_replaced trusted bound (elementary value member)).1 arrives
      obtain ⟨⟨line, _⟩, listed, rfl⟩ := List.mem_map.1 member
      exact ⟨line, name, flow, ⟨_, listed, arrives⟩, replaced⟩

/-- The summary of a function with elementary returns stands for its body: the
function is summarized, and a call with one positional argument for each parameter
gives the leaves and levels that inlining the body gives, never with more
sanitizers, and with the same ones if the body undoes none. Only the last
parameter may be variadic. -/
theorem summaryCall_standsFor_inlined {roots : List Node} {ends : List ScopeId}
    {annotator : Annotation.Annotator}
    (annotated : roots.mapM Annotation.annotateProgram Annotation.Annotator.start =
      .ok ends annotator) (rules : RuleSet) {declaration : Node}
    (member : declaration ∈ nodesOf roots) (distinct : declaration.parameterNames.Nodup)
    (trusted : forall name, name ∈ declaration.parameterNames ->
      rules.isInputVariable name = false)
    (last : forall parameter, parameter ∈ declaration.parameters.dropLast ->
      parameter.kind ≠ "variadic_parameter")
    (elementary : forall value, value ∈ returnedValues declaration ->
      Elementary (Program.ofAnnotated annotator rules roots) declaration.parameterNames value)
    {before : Memory} (unsummarized : before.summaries.find? declaration.key = none) :
    let program := Program.ofAnnotated annotator rules roots
    ∃ summary built, summarizeFunction declaration program before = .ok summary built ∧
      forall arguments values memory results after, List.Forall₂ Positional arguments values ->
        values.length = declaration.parameters.length ->
        values.mapM (visitor program.depth).trace program memory = .ok results after ->
          ∃ deps, summaryCall summary arguments program memory = .ok deps after ∧
            StandsFor (forall value, value ∈ returnedValues declaration ->
                forall inner, inner ∈ value.preorder -> callsReverse rules inner = false)
              deps (inlined rules annotator.globalScope declaration results) := by
  intro program
  have grounded : Grounded (nodesOf roots) program := Grounded.of_annotated annotated rules
  have plain : forall line value, (line, value) ∈ returnedOn declaration ->
      Elementary program declaration.parameterNames value ∧ value.tree.height <= program.depth := by
    intro line value listed
    exact ⟨elementary value (List.mem_map.2 ⟨_, listed, rfl⟩),
      height_le_depthBound ((inside_of_mem_returnedOn listed).occurs roots member)⟩
  have builds : Concludes program before (buildSummary (visitor program.depth).trace declaration)
      (fun summary _ => summary.declaration = declaration ∧
        GathersLines summary.returns (valueFlows rules annotator.globalScope
          declaration.parameterNames (returnedOn declaration))) fun _ _ => False :=
    buildSummary_givesLines grounded annotator.globalScope trusted plain
  cases run : buildSummary (visitor program.depth).trace declaration program before with
  | error fault after => exact (builds.of_error run).elim
  | ok summary after =>
      obtain ⟨rfl, lines⟩ := builds.of_ok run
      refine ⟨summary, after.keepSummary summary.declaration summary, ?_, ?_⟩
      · show summaryOf (visitor program.depth).trace summary.declaration program before = _
        rw [summaryOf_missing unsummarized, run]
      · intro arguments values memory results final positional count traced
        have called : summaryCall summary arguments program memory =
            .ok (substitute summary (argumentStore summary.declaration results)) final :=
          callDependencies_positional positional count last distinct traced
        exact ⟨_, called, substitute_standsFor_inlined trusted elementary lines
          ((length_of_mapM traced).trans count)⟩

/-- The returned expression in `partlyEscapingFile`. -/
def partlyEscapingValue : Tree :=
  .node "binary_expression" true 34 44 "" [
    .node "function_call_expression" true 34 39 "left" [
      .node "name" true 34 35 "function" [],
      .node "arguments" true 35 39 "arguments" [
        .node "argument" true 36 38 "" [.node "variable_name" true 36 38 "" []]]],
    .node "variable_name" true 42 44 "right" []]

/-- The declaration in `partlyEscapingFile`. -/
def partlyEscapingDeclaration : Tree :=
  .node "function_definition" true 6 47 "" [
    .node "name" true 15 16 "name" [],
    .node "formal_parameters" true 16 24 "parameters" [
      .node "simple_parameter" true 17 19 "" [.node "variable_name" true 17 19 "name" []],
      .node "simple_parameter" true 21 23 "" [.node "variable_name" true 21 23 "name" []]],
    .node "compound_statement" true 25 47 "body" [
      .node "return_statement" true 27 45 "" [partlyEscapingValue]]]

/-- The call in `partlyEscapingFile`. -/
def partlyEscapingCall : Tree :=
  .node "function_call_expression" true 48 63 "" [
    .node "name" true 48 49 "function" [],
    .node "arguments" true 49 63 "arguments" [
      .node "argument" true 50 55 "" [.node "variable_name" true 50 55 "" []],
      .node "argument" true 57 62 "" [.node "variable_name" true 57 62 "" []]]]

/-- The file `<?php function f($a, $b) { return e($a) . $b; } f($_GET, $_GET);`. -/
def partlyEscapingFile : Node :=
  ⟨⟨"partly.php", "<?php function f($a, $b) \x7b return e($a) . $b; \x7d f($_GET, $_GET);".toUTF8⟩,
    .node "program" true 0 64 "" [
      partlyEscapingDeclaration, .node "expression_statement" true 48 64 "" [partlyEscapingCall]]⟩

/-- The function of `partlyEscapingFile` escapes one of its parameters. Given one
input for both, its summary stands for its body, and the input counts as escaped on
some flow. -/
theorem summaryCall_standsFor_inlined_escaping :
    let declaration := partlyEscapingFile.withTree partlyEscapingDeclaration
    let arguments := (partlyEscapingFile.withTree partlyEscapingCall).arguments
    let values := arguments.flatMap Node.namedChildren
    ∃ ends annotator, [partlyEscapingFile].mapM Annotation.annotateProgram
        Annotation.Annotator.start = .ok ends annotator ∧
      let program := Program.ofAnnotated annotator escapingRules [partlyEscapingFile]
      ∃ summary built results after deps,
        summarizeFunction declaration program Memory.start = .ok summary built ∧
        values.mapM (visitor program.depth).trace program built = .ok results after ∧
        summaryCall summary arguments program built = .ok deps after ∧
        StandsFor (forall value, value ∈ returnedValues declaration ->
            forall inner, inner ∈ value.preorder -> callsReverse escapingRules inner = false)
          deps (inlined escapingRules annotator.globalScope declaration results) ∧
        deps.entries.map (fun entry => (entry.1, entry.2.level, entry.2.sanitizers.toList,
          entry.2.common.toList)) = [("$_GET", .tainted, ["e"], [])] := by
  intro declaration arguments values
  have ran : Outcome.passes (fun _ annotator =>
      let program := Program.ofAnnotated annotator escapingRules [partlyEscapingFile]
      ((returnedValues declaration).all fun value =>
        value.preorder.all (isElementaryNode program declaration.parameterNames)) &&
      Outcome.passes (fun summary built =>
        Outcome.passes (fun _ _ => true) (values.mapM (visitor program.depth).trace program built) &&
        Outcome.passes (fun deps _ => decide (deps.entries.map (fun entry => (entry.1,
            entry.2.level, entry.2.sanitizers.toList, entry.2.common.toList)) =
              [("$_GET", .tainted, ["e"], [])]))
          (summaryCall summary arguments program built))
        (summarizeFunction declaration program Memory.start))
      ([partlyEscapingFile].mapM Annotation.annotateProgram Annotation.Annotator.start) = true := by
    decide +kernel
  obtain ⟨ends, annotator, outcome, held⟩ := Outcome.exists_of_passes ran
  refine ⟨ends, annotator, outcome, ?_⟩
  intro program
  simp only [Bool.and_eq_true] at held
  obtain ⟨checked, summarized⟩ := held
  obtain ⟨summary, built, summarizes, held⟩ := Outcome.exists_of_passes summarized
  simp only [Bool.and_eq_true] at held
  obtain ⟨results, after, traced, _⟩ := Outcome.exists_of_passes held.1
  have member : declaration ∈ nodesOf [partlyEscapingFile] :=
    mem_nodesOf_of_mem_children (mem_nodesOf_of_root (List.mem_cons_self ..))
      (List.mem_cons_self ..)
  have elementary : forall value, value ∈ returnedValues declaration ->
      Elementary program declaration.parameterNames value := by
    intro value returned
    exact Elementary.of_all (List.all_eq_true.1 checked value returned)
  have positional : List.Forall₂ Positional arguments values :=
    .cons ⟨rfl, rfl, by decide⟩ (.cons ⟨rfl, rfl, by decide⟩ .nil)
  obtain ⟨found, kept, again, stands⟩ := summaryCall_standsFor_inlined outcome escapingRules member
    (by decide +kernel) (by decide +kernel) (by decide +kernel) elementary
    (show Memory.start.summaries.find? declaration.key = none from rfl)
  rw [summarizes] at again
  cases again
  obtain ⟨deps, called, standsFor⟩ := stands arguments values built results after positional
    rfl traced
  rw [called] at held
  exact ⟨summary, built, results, after, deps, summarizes, traced, called, standsFor,
    of_decide_eq_true held.2⟩

/-- The declaration in `variadicFirstFile`. -/
def variadicFirstDeclaration : Tree :=
  .node "function_definition" true 6 42 "" [
    .node "name" true 15 16 "name" [],
    .node "formal_parameters" true 16 27 "parameters" [
      .node "variadic_parameter" true 17 22 "" [.node "variable_name" true 20 22 "name" []],
      .node "simple_parameter" true 24 26 "" [.node "variable_name" true 24 26 "name" []]],
    .node "compound_statement" true 28 42 "body" [
      .node "return_statement" true 30 40 "" [.node "variable_name" true 37 39 "" []]]]

/-- The call in `variadicFirstFile`. -/
def variadicFirstCall : Tree :=
  .node "function_call_expression" true 43 54 "" [
    .node "name" true 43 44 "function" [],
    .node "arguments" true 44 54 "arguments" [
      .node "argument" true 45 46 "" [.node "integer" true 45 46 "" []],
      .node "argument" true 48 53 "" [.node "variable_name" true 48 53 "" []]]]

/-- The file `<?php function f(...$a, $b) { return $b; } f(1, $_GET);`. -/
def variadicFirstFile : Node :=
  ⟨⟨"variadic.php", "<?php function f(...$a, $b) \x7b return $b; \x7d f(1, $_GET);".toUTF8⟩,
    .node "program" true 0 55 "" [
      variadicFirstDeclaration, .node "expression_statement" true 43 55 "" [variadicFirstCall]]⟩

/-- A variadic parameter takes all further arguments, also those of the parameters
after it: the function of `variadicFirstFile` returns its second parameter, which
nothing is bound to. -/
theorem summaryCall_ne_inlined_variadic :
    let declaration := variadicFirstFile.withTree variadicFirstDeclaration
    let arguments := (variadicFirstFile.withTree variadicFirstCall).arguments
    let values := arguments.flatMap Node.namedChildren
    declaration.parameterNames.Nodup ∧
      (forall name, name ∈ declaration.parameterNames ->
        escapingRules.isInputVariable name = false) ∧
      List.Forall₂ Positional arguments values ∧
      values.length = declaration.parameters.length ∧
      ∃ ends annotator, [variadicFirstFile].mapM Annotation.annotateProgram
          Annotation.Annotator.start = .ok ends annotator ∧
        let program := Program.ofAnnotated annotator escapingRules [variadicFirstFile]
        (forall value, value ∈ returnedValues declaration ->
          Elementary program declaration.parameterNames value) ∧
        ∃ summary built results after deps final,
          summarizeFunction declaration program Memory.start = .ok summary built ∧
          values.mapM (visitor program.depth).trace program built = .ok results after ∧
          summaryCall summary arguments program built = .ok deps final ∧
          "$_GET" ∈ (inlined escapingRules annotator.globalScope declaration results).keys ∧
          "$_GET" ∉ deps.keys := by
  intro declaration arguments values
  have ran : Outcome.passes (fun _ annotator =>
      let program := Program.ofAnnotated annotator escapingRules [variadicFirstFile]
      ((returnedValues declaration).all fun value =>
        value.preorder.all (isElementaryNode program declaration.parameterNames)) &&
      Outcome.passes (fun summary built =>
        Outcome.passes (fun results _ => (returnedValues declaration).any fun value =>
            value.form = .variableName && decide ("$_GET" ∈ (variableValue escapingRules
              annotator.globalScope (argumentStore declaration results) value.text).keys))
          (values.mapM (visitor program.depth).trace program built) &&
        Outcome.passes (fun deps _ => decide ("$_GET" ∉ deps.keys))
          (summaryCall summary arguments program built))
        (summarizeFunction declaration program Memory.start))
      ([variadicFirstFile].mapM Annotation.annotateProgram Annotation.Annotator.start) = true := by
    decide +kernel
  obtain ⟨ends, annotator, outcome, held⟩ := Outcome.exists_of_passes ran
  simp only [Bool.and_eq_true] at held
  obtain ⟨checked, summarized⟩ := held
  obtain ⟨summary, built, summarizes, held⟩ := Outcome.exists_of_passes summarized
  simp only [Bool.and_eq_true] at held
  obtain ⟨results, after, traced, arrives⟩ := Outcome.exists_of_passes held.1
  obtain ⟨deps, final, called, missing⟩ := Outcome.exists_of_passes held.2
  refine ⟨by decide +kernel, by decide +kernel,
    .cons ⟨rfl, rfl, by decide⟩ (.cons ⟨rfl, rfl, by decide⟩ .nil), rfl, ends, annotator, outcome,
    ?_, summary, built, results, after, deps, final, summarizes, traced, called, ?_,
    of_decide_eq_true missing⟩
  · intro value returned
    exact Elementary.of_all (List.all_eq_true.1 checked value returned)
  · obtain ⟨value, returned, held⟩ := List.any_eq_true.1 arrives
    simp only [Bool.and_eq_true, decide_eq_true_eq] at held
    refine Dependencies.mem_keys_merge.2 ⟨_, List.mem_map.2 ⟨value, returned, rfl⟩, ?_⟩
    rw [evaluate_variable held.1]
    exact held.2

end PhpTaint.Flow
