import PhpTaint.Proofs.Flow.Depth
import PhpTaint.Proofs.Flow.Growth
import PhpTaint.Proofs.Flow.Provenance

/-!
# Tracing keeps leaves with their functions

`Attends` is the invariant of a memory: in the tracer of a function in which a name
is uncaptured, and in the summaries of such functions, the name is held only as a
parameter that its function reads. Every rule of tracing keeps it, whatever is
traced, so it holds of every memory that an analysis can reach.
-/

namespace PhpTaint.Flow

open Scopes Syntax Rules

/-- A record leads to leaves and bindings that the function meets. -/
structure Recorded (program : Program) (nodes : List Node) (name : String) (context : Node)
    (other : String) (record : LeafRecord) : Prop where
  leaf : program.rules.isInputVariable other = false -> record.definition = none ->
    HoldsOwn program nodes name context (Dependencies.single other record)
  bound : program.rules.isInputVariable other = false -> forall binding,
    record.definition = some binding -> Meets program nodes context context (.variable other binding)

/-- The summaries of functions in which a name is uncaptured hold it as their own
parameter only. -/
def SummariesOwn (program : Program) (nodes : List Node) (name : String) (memory : Memory) : Prop :=
  forall key summary, memory.summaries.find? key = some summary ->
    Uncaptured program nodes name summary.declaration ->
      EachOwn program nodes name summary.declaration summary.returns

/-- The tracer is that of a function in which a name is uncaptured, if it is `watched`,
and the name has been kept with the functions that read it. -/
structure Attends (program : Program) (nodes : List Node) (name : String) (watched : Prop)
    (context : Node) (memory : Memory) : Prop extends Coherent nodes memory where
  uncaptured : watched -> Uncaptured program nodes name context
  parameters : watched -> memory.tracer.parameters = context.parameterNames
  recorded : watched -> forall other record, memory.tracer.records.find? other = some record ->
    Recorded program nodes name context other record
  traced : watched -> EachOwn program nodes name context memory.tracer.traced
  summarized : SummariesOwn program nodes name memory

/-- A step keeps the invariant, however it ends, and gives a value of some kind. -/
def Attributes {α : Type} (program : Program) (nodes : List Node) (name : String) (watched : Prop)
    (context : Node) (memory : Memory) (step : Tracing α) (good : α -> Prop) : Prop :=
  Concludes program memory step
    (fun value after => good value ∧ Attends program nodes name watched context after)
    fun _ after => Attends program nodes name watched context after

/-- The traces that a trace starts keep the invariant. -/
structure Attributor (program : Program) (nodes : List Node) (name : String) (visitor : Visitor) :
    Prop where
  trace : forall watched context memory node, node ∈ nodes ->
    Attends program nodes name watched context memory ->
    (watched -> Meets program nodes context context (.expression node)) ->
      Attributes program nodes name watched context memory (visitor.trace node) fun deps =>
        watched -> HoldsOwn program nodes name context deps
  definition : forall watched context memory other definition, definition ∈ nodes ->
    other ∈ definition.definedNames -> Attends program nodes name watched context memory ->
    (watched -> Meets program nodes context context (.variable other (.referent definition))) ->
      Attributes program nodes name watched context memory (visitor.definition other definition)
        fun deps => watched -> HoldsOwn program nodes name context deps

section Invariant

variable {α β : Type} {program : Program} {nodes : List Node} {name : String} {watched : Prop}
  {context : Node} {memory : Memory}

/-- The invariant is a matter of what the tracer has learned and of the summaries. -/
theorem Attends.of_eq (attends : Attends program nodes name watched context memory) {after : Memory}
    (parameters : after.tracer.parameters = memory.tracer.parameters)
    (records : after.tracer.records = memory.tracer.records)
    (traced : after.tracer.traced = memory.tracer.traced)
    (summaries : after.summaries = memory.summaries) :
    Attends program nodes name watched context after where
  toCoherent := attends.toCoherent.of_eq records summaries
  uncaptured := attends.uncaptured
  parameters := by
    rw [parameters]
    exact attends.parameters
  recorded := by
    rw [records]
    exact attends.recorded
  traced := by
    rw [traced]
    exact attends.traced
  summarized := by
    unfold SummariesOwn
    rw [summaries]
    exact attends.summarized

/-- A record may be kept if it is one that the function has of the name. -/
theorem Attends.keepRecord (attends : Attends program nodes name watched context memory)
    {other : String} {record : LeafRecord} (suits : SuitsRecord nodes other record)
    (leads : watched -> Recorded program nodes name context other record) :
    Attends program nodes name watched context (memory.keepRecord other record) where
  toCoherent := attends.toCoherent.keepRecord suits
  uncaptured := attends.uncaptured
  parameters := attends.parameters
  recorded := by
    intro holds found kept listed
    change (memory.tracer.records.insert other record).find? found = some kept at listed
    rw [Table.find?_insert] at listed
    split at listed
    · rename_i same
      subst same
      cases listed
      exact leads holds
    · exact attends.recorded holds found kept listed
  traced := attends.traced
  summarized := attends.summarized

/-- Dependencies may be kept if they hold the name only as a parameter. -/
theorem Attends.keepTraced (attends : Attends program nodes name watched context memory) (key : Key)
    {deps : Deps} (own : watched -> HoldsOwn program nodes name context deps) :
    Attends program nodes name watched context (memory.keepTraced key deps) where
  toCoherent := attends.toCoherent.of_eq rfl rfl
  uncaptured := attends.uncaptured
  parameters := attends.parameters
  recorded := attends.recorded
  traced := fun holds => (attends.traced holds).insert key (own holds)
  summarized := attends.summarized

/-- A note of the unannotated keeps the invariant. -/
theorem Attends.noted (attends : Attends program nodes name watched context memory)
    (rules : RuleSet) (node : Node) :
    Attends program nodes name watched context (memory.noted rules node) := by
  unfold Memory.noted
  split
  · exact attends.of_eq rfl rfl rfl rfl
  · exact attends

/-- A fresh tracer of a function has learned nothing. -/
theorem Attends.fresh (coherent : Coherent nodes memory)
    (summarized : SummariesOwn program nodes name memory)
    (uncaptured : watched -> Uncaptured program nodes name context) {parameters : List String}
    (same : watched -> parameters = context.parameterNames) (followsCalls : Bool) :
    Attends program nodes name watched context
      (memory.withTracer (Tracer.fresh parameters followsCalls)) where
  toCoherent := coherent.fresh parameters followsCalls
  uncaptured := uncaptured
  parameters := same
  recorded := by
    rintro _ other record ⟨⟩
  traced := fun _ => .empty
  summarized := summarized

/-- The tracer is put back once the summaries have grown. -/
theorem Attends.withTracer (attends : Attends program nodes name watched context memory)
    {after : Memory} (coherent : Coherent nodes after)
    (summarized : SummariesOwn program nodes name after) :
    Attends program nodes name watched context (after.withTracer memory.tracer) where
  toCoherent := coherent.withTracer attends.toCoherent
  uncaptured := attends.uncaptured
  parameters := attends.parameters
  recorded := attends.recorded
  traced := attends.traced
  summarized := summarized

namespace Attributes

variable {step : Tracing α} {good better : α -> Prop}

theorem of_pure (attends : Attends program nodes name watched context memory) {value : α}
    (holds : good value) :
    Attributes program nodes name watched context memory (pure value : Tracing α) good :=
  ⟨holds, attends⟩

/-- A step keeps the invariant with the step that follows on each of its values. -/
theorem bind {first : Tracing β} {next : β -> Tracing α} {passed : β -> Prop}
    (attributes : Attributes program nodes name watched context memory first passed)
    (continues : forall value after, passed value ->
      Attends program nodes name watched context after ->
        Attributes program nodes name watched context after (next value) good) :
    Attributes program nodes name watched context memory (first >>= next) good := by
  rw [Attributes, Concludes.bind_iff]
  refine Concludes.mono attributes ?_ fun _ _ holds => holds
  rintro value after ⟨holds, attends⟩
  exact continues value after holds attends

/-- A list of steps keeps the invariant if each of them does. -/
theorem mapM {step : β -> Tracing α} {items : List β}
    (attends : Attends program nodes name watched context memory)
    (steps : forall item, item ∈ items -> forall after,
      Attends program nodes name watched context after ->
        Attributes program nodes name watched context after (step item) good) :
    Attributes program nodes name watched context memory (items.mapM step) fun results =>
      forall value, value ∈ results -> good value := by
  refine Concludes.mapM (fun _ results after => (forall value, value ∈ results -> good value) ∧
    Attends program nodes name watched context after) ⟨nofun, attends⟩ ?_
  rintro done item rest itemsEq results after ⟨each, attends⟩
  have member : item ∈ items := by simp [itemsEq]
  refine Concludes.mono (steps item member after attends) ?_ fun _ _ holds => holds
  rintro value final ⟨holds, attends⟩
  refine ⟨?_, attends⟩
  intro other listed
  rcases List.mem_append.1 listed with earlier | last
  · exact each other earlier
  · cases List.mem_singleton.1 last
    exact holds

end Attributes

end Invariant

section Variables

variable {program : Program} {nodes : List Node} {name other : String} {watched : Prop}
  {context node : Node} {memory : Memory} {visitor : Visitor}

/-- A variable that is looked up is met with its binding. -/
theorem lookupVariable_attributes (grounded : Grounded nodes program)
    (attends : Attends program nodes name watched context memory) (reads : node.form = .variableName)
    (met : watched -> Meets program nodes context context (.expression node))
    (free : watched -> node.text ∉ context.parameterNames) :
    Attributes program nodes name watched context memory (lookupVariable node.text node)
      fun record => SuitsRecord nodes node.text record ∧
        (watched -> Recorded program nodes name context node.text record) := by
  refine Concludes.lookupVariable_of ?_ ?_ ?_
  · intro fault _
    exact attends
  · intro scope binding located visible
    refine ⟨⟨suitsRecord_of_visible grounded visible _, fun holds => ⟨nofun, ?_⟩⟩, attends⟩
    rintro trusted _ ⟨⟩
    refine .use (met holds) (.read ⟨reads, trusted, scope, located, visible⟩) ?_
    rintro _ _ ⟨⟩
    exact free holds
  · intro scope journal located absent
    refine ⟨⟨⟨rfl, nofun⟩, fun holds => ⟨fun trusted _ => ?_, nofun⟩⟩, attends.of_eq rfl rfl rfl rfl⟩
    refine HoldsOwn.single_of_ne ?_ _
    refine (attends.uncaptured holds).ne_of_expression (met holds)
      (.leaf (.unbound ⟨reads, trusted, scope, located, absent⟩)) ?_
    intro own
    exact free holds own.listed

/-- A variable that is read has a record that the function has of it. -/
theorem resolveVariable_attributes (grounded : Grounded nodes program)
    (attends : Attends program nodes name watched context memory) (reads : node.form = .variableName)
    (met : watched -> Meets program nodes context context (.expression node)) :
    Attributes program nodes name watched context memory (resolveVariable node.text node)
      fun record => SuitsRecord nodes node.text record ∧
        (watched -> Recorded program nodes name context node.text record) := by
  refine Concludes.resolveVariable_of ?_ ?_ ?_
  · intro record found
    exact ⟨⟨attends.records _ record found, fun holds => attends.recorded holds _ record found⟩,
      attends⟩
  · intro _ listed
    have suits : SuitsRecord nodes node.text (Record.unassigned node.text) := ⟨rfl, nofun⟩
    have leads : watched -> Recorded program nodes name context node.text
        (Record.unassigned node.text) := by
      intro holds
      have isParameter : node.text ∈ context.parameterNames := by
        rw [← attends.parameters holds]
        exact List.contains_iff_mem.1 listed
      refine ⟨fun _ _ record found => ?_, nofun⟩
      have same : name = node.text := by
        simpa using (Table.mem_keys_iff _ name).2 ⟨record, found⟩
      subst same
      rw [Dependencies.single, Table.find?_insert, if_pos rfl] at found
      cases found
      obtain ⟨_, here, own⟩ := attends.uncaptured holds _ _ (met holds) (.parameter reads isParameter)
      cases here
      exact ⟨rfl, node, met holds, own⟩
    exact ⟨⟨suits, leads⟩, attends.keepRecord suits leads⟩
  · intro _ unlisted
    have free : watched -> node.text ∉ context.parameterNames := by
      intro holds listed
      rw [← attends.parameters holds, ← List.contains_iff_mem, unlisted] at listed
      cases listed
    refine Concludes.mono (lookupVariable_attributes grounded attends reads met free) ?_
      fun _ _ holds => holds
    rintro record after ⟨⟨suits, leads⟩, attends⟩
    exact ⟨⟨suits, leads⟩, attends.keepRecord suits leads⟩

/-- A variable that is met is followed to a leaf that is met, or to a definition. -/
theorem met_of_recordOrigin {record : LeafRecord} {binding : Binding Node}
    (parameters : List String) (named : record.name = other)
    (bound : record.definition = some binding)
    (met : Meets program nodes context context (.variable other binding)) :
    match recordOrigin program.registry parameters record with
    | .leaf deps => ∃ final, Meets program nodes context context (.variable other final) ∧
        LeafSite program (.variable other final) other ∧ deps.keys = [other]
    | .definition definition =>
        Meets program nodes context context (.variable other (.referent definition)) := by
  subst named
  have followed : Meets program nodes context context
      (.variable record.name (followedBinding program.registry binding)) := by
    rcases eq_or_useStep_followedBinding program record.name binding with same | step
    · rw [same]
      exact met
    · refine .use met step ?_
      rintro _ _ ⟨⟩
      exact met.not_mem_parameterNames
  rw [recordOrigin_of_bound parameters bound]
  cases origin : bindingOrigin parameters record.name
      (followedBinding program.registry binding) with
  | leaf deps =>
      have isLeaf : LeafSite program
          (.variable record.name (followedBinding program.registry binding)) record.name :=
        (leafSite_iff_of_bindingOrigin followedBinding_followedBinding origin).2 rfl
      exact ⟨_, followed, isLeaf, keys_of_bindingOrigin origin⟩
  | definition definition =>
      rw [eq_referent_of_bindingOrigin origin] at followed
      exact followed

/-- A definition that is followed holds the name only as a parameter. -/
theorem followDefinition_attributes (attributor : Attributor program nodes name visitor)
    (attends : Attends program nodes name watched context memory) {definition : Node}
    (member : definition ∈ nodes) (defines : other ∈ definition.definedNames)
    (met : watched ->
      Meets program nodes context context (.variable other (.referent definition))) :
    Attributes program nodes name watched context memory
      (followDefinition visitor.definition other definition)
      fun deps => watched -> HoldsOwn program nodes name context deps := by
  refine Concludes.followDefinition_of ?_ ?_ ?_
  · intro deps found
    exact ⟨fun holds => attends.traced holds _ deps found, attends⟩
  · intro journal _ _
    exact ⟨fun _ => .empty, attends.of_eq rfl rfl rfl rfl⟩
  · intro _ _
    have active : Attends program nodes name watched context (memory.activate definition.key) :=
      attends.of_eq rfl rfl rfl rfl
    refine Concludes.mono
      (attributor.definition watched context _ other definition member defines active met) ?_ ?_
    · rintro deps after ⟨own, attends⟩
      have released : Attends program nodes name watched context (after.release definition.key) :=
        attends.of_eq rfl rfl rfl rfl
      exact ⟨own, released.keepTraced definition.key own⟩
    · intro fault after attends
      exact attends.of_eq rfl rfl rfl rfl

/-- A record is followed to what the function meets. -/
theorem followRecord_attributes (grounded : Grounded nodes program)
    (attributor : Attributor program nodes name visitor)
    (attends : Attends program nodes name watched context memory) {record : LeafRecord}
    (suits : SuitsRecord nodes other record)
    (trusted : program.rules.isInputVariable other = false)
    (leads : watched -> Recorded program nodes name context other record) :
    Attributes program nodes name watched context memory
      (followRecord visitor.definition record)
      fun deps => watched -> HoldsOwn program nodes name context deps := by
  refine Concludes.followRecord_of ?_ ?_
  · intro deps journal origin
    refine ⟨fun holds => ?_, attends.of_eq rfl rfl rfl rfl⟩
    cases bound : record.definition with
    | none =>
        simp only [recordOrigin, bound, suits.named] at origin
        cases origin
        exact (leads holds).leaf trusted bound
    | some binding =>
        have met := (leads holds).bound trusted binding bound
        have site := met_of_recordOrigin memory.tracer.parameters suits.named bound met
        rw [origin] at site
        obtain ⟨final, here, isLeaf, keys⟩ := site
        refine HoldsOwn.of_not_mem ?_
        rw [keys, List.mem_singleton]
        exact fun same => (attends.uncaptured holds).ne_of_variable here isLeaf same.symm
  · intro definition origin
    obtain ⟨member, defines⟩ := definition_of_recordOrigin grounded suits origin
    rw [suits.named]
    refine followDefinition_attributes attributor attends member defines fun holds => ?_
    cases bound : record.definition with
    | none => simp [recordOrigin, bound] at origin
    | some binding =>
        have site := met_of_recordOrigin memory.tracer.parameters suits.named bound
          ((leads holds).bound trusted binding bound)
        rw [origin] at site
        exact site

/-- A variable that is read is an input, a parameter, or followed. -/
theorem traceVariable_attributes (grounded : Grounded nodes program)
    (attributor : Attributor program nodes name visitor)
    (attends : Attends program nodes name watched context memory) (reads : node.form = .variableName)
    (met : watched -> Meets program nodes context context (.expression node)) :
    Attributes program nodes name watched context memory (traceVariable visitor.definition node)
      fun deps => watched -> HoldsOwn program nodes name context deps := by
  refine Concludes.traceVariable_of ?_
  refine Concludes.mono (resolveVariable_attributes grounded attends reads met) ?_
    fun _ _ holds => holds
  rintro record after ⟨⟨suits, leads⟩, attends⟩
  cases isInput : program.rules.isInputVariable node.text with
  | true =>
      rw [if_pos rfl]
      refine ⟨fun holds => HoldsOwn.single_of_ne ?_ _, attends.keepRecord ⟨suits.named, suits.bound⟩ ?_⟩
      · refine (attends.uncaptured holds).ne_of_expression (met holds) (.leaf (.input reads isInput)) ?_
        intro own
        rw [own.trusted] at isInput
        cases isInput
      · refine fun _ => ⟨fun trusted => ?_, fun trusted => ?_⟩
        · rw [isInput] at trusted
          cases trusted
        · rw [isInput] at trusted
          cases trusted
  | false =>
      rw [if_neg Bool.false_ne_true]
      have visible : Attributes program nodes name watched context after
          (if isActive after.tracer record.definition then lookupVariable node.text node
            else pure record) fun record => SuitsRecord nodes node.text record ∧
              (watched -> Recorded program nodes name context node.text record) := by
        split
        · rename_i active
          refine lookupVariable_attributes grounded attends reads met fun holds => ?_
          -- a definition that is being followed is that of no parameter
          cases bound : record.definition with
          | none => simp [isActive, bound] at active
          | some binding => exact ((leads holds).bound isInput binding bound).not_mem_parameterNames
        · exact .of_pure attends ⟨suits, leads⟩
      refine Concludes.mono visible ?_ fun _ _ holds => holds
      rintro found final ⟨⟨suits, leads⟩, attends⟩
      exact followRecord_attributes grounded attributor attends suits isInput leads

/-- The former value of a variable that is met. -/
theorem priorValue_attributes (grounded : Grounded nodes program)
    (attributor : Attributor program nodes name visitor)
    (attends : Attends program nodes name watched context memory) {definition left : Node}
    (defines : other ∈ definition.definedNames) (kept : keptTarget? definition = some left)
    (met : watched ->
      Meets program nodes context context (.variable other (.referent definition))) :
    Attributes program nodes name watched context memory
      (priorValue visitor.definition other left)
      fun deps => watched -> HoldsOwn program nodes name context deps := by
  have same : forall start, formerVariable? left = some start -> other = start.text :=
    fun start chosen => name_eq_of_formerVariable? defines kept chosen
  refine Concludes.priorValue_of ?_ ?_ ?_ ?_ ?_ ?_
  · intro _
    exact ⟨fun _ => .empty, attends⟩
  · intro start chosen isInput
    refine ⟨fun holds => HoldsOwn.single_of_ne ?_ _, attends⟩
    rw [same start chosen] at isInput ⊢
    exact (attends.uncaptured holds).ne_of_variable (met holds)
      (.former ⟨left, kept, chosen⟩ isInput)
  · intro start _ _ listed
    refine ⟨fun holds => ?_, attends⟩
    rw [attends.parameters holds, List.contains_iff_mem] at listed
    exact absurd listed (met holds).not_mem_parameterNames
  · intro start fault _ _ _
    exact attends
  · intro start scope _ _ _ _
    exact ⟨fun _ => .empty, attends⟩
  · intro start scope binding chosen trusted _ located visible
    refine followRecord_attributes grounded attributor attends
      (suitsRecord_of_visible grounded visible _) trusted fun holds => ⟨nofun, ?_⟩
    rintro _ _ ⟨⟩
    have reads := Node.isVariable_iff.1 (Option.filter_eq_some_iff.1 chosen).2
    have named := same start chosen
    subst named
    refine .use (met holds) (.former ⟨left, kept, chosen⟩ ⟨reads, trusted, scope, located, visible⟩) ?_
    rintro _ _ ⟨⟩
    exact (met holds).not_mem_parameterNames

/-- A definition takes its value from what the function meets. -/
theorem traceDefinition_attributes (grounded : Grounded nodes program)
    (attributor : Attributor program nodes name visitor)
    (attends : Attends program nodes name watched context memory) {definition : Node}
    (inside : forall part, part.Inside definition -> part ∈ nodes)
    (defines : other ∈ definition.definedNames)
    (met : watched ->
      Meets program nodes context context (.variable other (.referent definition))) :
    Attributes program nodes name watched context memory
      (Flow.traceDefinition visitor other definition)
      fun deps => watched -> HoldsOwn program nodes name context deps := by
  refine (Concludes.traceDefinition_iff (isDefinition_of_mem_definedNames defines)).2 ?_
  have traced : Attributes program nodes name watched context memory
      ((definingPart? definition).toList.mapM visitor.trace) fun results =>
        forall deps, deps ∈ results -> watched -> HoldsOwn program nodes name context deps := by
    refine .mapM attends fun part listed after attends => ?_
    have found := Option.mem_toList.1 listed
    refine attributor.trace watched context after part (inside part (inside_of_definingPart? found))
      attends fun holds => .use (met holds) (.value found) ?_
    rintro _ _ ⟨⟩
  refine Concludes.mono traced ?_ fun _ _ holds => holds
  rintro results after ⟨each, attends⟩
  have value : watched -> HoldsOwn program nodes name context (Dependencies.merge results) :=
    fun holds => .merge fun deps listed => each deps listed holds
  cases kept : keptTarget? definition with
  | none => exact ⟨value, attends⟩
  | some left =>
      refine Concludes.mono
        (priorValue_attributes grounded attributor attends defines kept met) ?_ fun _ _ holds => holds
      rintro former final ⟨own, attends⟩
      exact ⟨fun holds => (own holds).mergeTwo (value holds), attends⟩

end Variables

section Calls

variable {program : Program} {nodes : List Node} {name : String} {watched : Prop}
  {context node declaration : Node} {memory : Memory} {visitor : Visitor}

/-- What a function returns is met by its own tracer. -/
theorem traceReturns_attributes (attributor : Attributor program nodes name visitor)
    (attends : Attends program nodes name watched declaration memory) {body : Node}
    (found : declaration.child? "body" = some body)
    (inside : forall part, part.Inside declaration -> part ∈ nodes) :
    Attributes program nodes name watched declaration memory
      (traceReturns visitor.trace declaration body) fun returns =>
        watched -> EachOwn program nodes name declaration returns := by
  refine Concludes.traceReturns_of found
    (fun _ returns after => (watched -> EachOwn program nodes name declaration returns) ∧
      Attends program nodes name watched declaration after) ⟨fun _ => .empty, attends⟩ ?_ ?_
  · rintro done line value returns after listed ⟨each, attends⟩
    refine Concludes.mono (attributor.trace watched declaration after value
      (inside value (inside_of_mem_returnedOn listed)) attends fun _ =>
        .returned (List.mem_map.2 ⟨_, listed, rfl⟩)) ?_ fun _ _ ends => ends
    rintro deps final ⟨own, attends⟩
    exact ⟨fun holds => (each holds).addReturn line (own holds), attends⟩
  · rintro done line returns after ⟨each, attends⟩
    exact ⟨fun holds => (each holds).addReturn line .empty, attends⟩

/-- A summary is built by a tracer of its own; that of the caller is put back. -/
theorem buildSummary_attributes (attributor : Attributor program nodes name visitor)
    (attends : Attends program nodes name watched context memory)
    (inside : forall part, part.Inside declaration -> part ∈ nodes) :
    Attributes program nodes name watched context memory (buildSummary visitor.trace declaration)
      fun summary => summary.declaration = declaration ∧
        (Uncaptured program nodes name declaration ->
          EachOwn program nodes name declaration summary.returns) := by
  cases found : declaration.child? "body" with
  | none =>
      exact (Concludes.buildSummary_without_body_iff found).2 ⟨⟨rfl, fun _ => .empty⟩, attends⟩
  | some body =>
      have begun : Coherent nodes (memory.begin declaration.key) :=
        attends.toCoherent.of_eq rfl rfl
      have entered : Attends program nodes name (Uncaptured program nodes name declaration)
          declaration (memory.enter declaration) :=
        .fresh begun attends.summarized id (fun _ => rfl) true
      have left : forall after, Attends program nodes name
            (Uncaptured program nodes name declaration) declaration after ->
          Attends program nodes name watched context (after.leave memory declaration) := by
        intro after later
        exact (attends.withTracer later.toCoherent later.summarized).of_eq rfl rfl rfl rfl
      refine (Concludes.buildSummary_iff found).2 (Concludes.mono
        (traceReturns_attributes attributor entered found inside) ?_ fun _ => left)
      rintro returns after ⟨own, later⟩
      exact ⟨⟨rfl, own⟩, (left after later).of_eq rfl rfl rfl rfl⟩

/-- The summary of a function in which the name is uncaptured holds it only as a parameter. -/
theorem summaryOf_attributes (attributor : Attributor program nodes name visitor)
    (attends : Attends program nodes name watched context memory) (member : declaration ∈ nodes)
    (inside : forall part, part.Inside declaration -> part ∈ nodes) :
    Attributes program nodes name watched context memory (summaryOf visitor.trace declaration)
      fun summary => (summary.declaration ∈ nodes ∧ summary.declaration.key = declaration.key) ∧
        (Uncaptured program nodes name summary.declaration ->
          EachOwn program nodes name summary.declaration summary.returns) := by
  refine Concludes.summaryOf_iff.2 ?_
  cases found : memory.summaries.find? declaration.key with
  | some summary =>
      exact ⟨⟨attends.summaries _ summary found, attends.summarized _ summary found⟩, attends⟩
  | none =>
      refine Concludes.mono (buildSummary_attributes attributor attends inside) ?_
        fun _ _ later => later
      rintro summary after ⟨⟨rfl, own⟩, later⟩
      refine ⟨⟨⟨member, rfl⟩, own⟩, later.toCoherent.keepSummary member rfl, later.uncaptured,
        later.parameters, later.recorded, later.traced, ?_⟩
      intro key other listed
      change (after.summaries.insert summary.declaration.key summary).find? key = some other
        at listed
      rw [Table.find?_insert] at listed
      split at listed
      · cases listed
        exact own
      · exact later.summarized key other listed

/-- A call of a function whose returns bring in nothing of the name holds what its
arguments hold. -/
theorem callDependencies_attributes (attributor : Attributor program nodes name visitor)
    (closed : forall node part, node ∈ nodes -> part.Inside node -> part ∈ nodes)
    (attends : Attends program nodes name watched context memory) (member : node ∈ nodes)
    {summary : Summary} (called : calledFunction? program node = some declaration)
    (declared : summary.declaration ∈ nodes) (sameKey : summary.declaration.key = declaration.key)
    (met : watched -> Meets program nodes context context (.expression node))
    (returns : watched -> EachOwn program nodes name summary.declaration summary.returns) :
    Attributes program nodes name watched context memory
      (callDependencies visitor.trace summary node.arguments) fun deps =>
        watched -> HoldsOwn program nodes name context deps := by
  refine Concludes.callDependencies_of
    (fun bound after => (watched -> EachOwn program nodes name context bound) ∧
      Attends program nodes name watched context after) ⟨fun _ => .empty, attends⟩ ?_ ?_ ?_
  · rintro argument value bound after listed passed ⟨each, attends⟩
    have inside := (Node.Inside.of_mem_arguments listed).of_argumentValue passed
    refine Concludes.mono (attributor.trace watched context after value
      (closed node value member inside) attends fun holds =>
        .flow (met holds) (.argument called listed passed)) ?_ fun _ _ ends => ends
    rintro deps final ⟨own, attends⟩
    exact ⟨fun holds => (each holds).bind argument value (own holds), attends⟩
  · rintro receiver value bound after unfilled ⟨each, attends⟩
    have inside := inside_of_mem_unfilledDefaults unfilled
    refine Concludes.mono (attributor.trace watched context after value
      (closed summary.declaration value declared inside) attends fun holds =>
        .flow (met holds) (.fallback called declared sameKey unfilled)) ?_ fun _ _ ends => ends
    rintro deps final ⟨own, attends⟩
    exact ⟨fun holds => (each holds).bindHanded receiver (own holds), attends⟩
  · rintro bound after ⟨each, attends⟩
    exact ⟨fun holds => .substitute (returns holds) (each holds), attends⟩

/-- A call brings in what its arguments hold and nothing of the name from the function
that it calls. -/
theorem followCall_attributes (grounded : Grounded nodes program)
    (attributor : Attributor program nodes name visitor)
    (closed : forall node part, node ∈ nodes -> part.Inside node -> part ∈ nodes)
    (attends : Attends program nodes name watched context memory) (member : node ∈ nodes)
    {callee : Node} (isCall : node.form = .call)
    (named : calleeOf program.rules node = .named callee)
    (met : watched -> Meets program nodes context context (.expression node)) :
    Attributes program nodes name watched context memory
      (followCall visitor.trace node callee.text) fun followed =>
        forall deps, followed = some deps -> watched ->
          HoldsOwn program nodes name context deps := by
  refine grounded.followCall_of isCall named ?_ ?_ ?_ ?_
  · exact fun _ _ => attends
  · intro _
    refine ⟨?_, attends⟩
    rintro _ ⟨⟩
  · intro declaration called _ text
    refine ⟨?_, attends.of_eq rfl rfl rfl rfl⟩
    rintro _ ⟨⟩ holds
    refine HoldsOwn.single_of_ne ?_ _
    refine (attends.uncaptured holds).ne_of_expression (met holds) (.recursion called named) ?_
    intro own
    rw [own.reads] at isCall
    cases isCall
  · intro declaration called declares _ _
    have entered : Attributes program nodes name watched context memory
        (summaryOf visitor.trace declaration >>= fun summary =>
          callDependencies visitor.trace summary node.arguments)
        fun deps => watched -> HoldsOwn program nodes name context deps := by
      refine .bind (summaryOf_attributes attributor attends declares (closed declaration · declares)) ?_
      rintro summary after ⟨⟨declared, sameKey⟩, own⟩ attends
      refine callDependencies_attributes attributor closed attends member called declared sameKey
        met ?_
      intro holds
      exact own ((attends.uncaptured holds).of_call (met holds) called declared sameKey)
    refine Concludes.mono entered ?_ fun _ _ holds => holds
    rintro deps after ⟨holdsOwn, attends⟩
    refine ⟨?_, attends⟩
    rintro _ ⟨⟩
    exact holdsOwn

/-- An expression keeps the invariant if the traces that it starts do. -/
theorem traceNode_attributes (grounded : Grounded nodes program)
    (attributor : Attributor program nodes name visitor)
    (closed : forall node part, node ∈ nodes -> part.Inside node -> part ∈ nodes)
    (attends : Attends program nodes name watched context memory) (member : node ∈ nodes)
    (met : watched -> Meets program nodes context context (.expression node)) :
    Attributes program nodes name watched context memory (traceNode visitor node) fun deps =>
      watched -> HoldsOwn program nodes name context deps := by
  -- the parts of an expression that is not followed as a call
  have parts : forall before, Attends program nodes name watched context before ->
      Attributes program nodes name watched context before
        ((valueParts program.rules node).mapM visitor.trace) fun results =>
          forall deps, deps ∈ results -> watched -> HoldsOwn program nodes name context deps := by
    intro before attends
    refine .mapM attends fun part listed after attends => ?_
    refine attributor.trace watched context after part
      (closed node part member (inside_of_mem_valueParts listed)) attends fun holds =>
        .use (met holds) (.part listed) ?_
    rintro _ _ ⟨⟩
  have own : watched -> forall leaf, leafName? program.rules node = some leaf -> leaf ≠ name := by
    intro holds leaf isLeaf
    refine (attends.uncaptured holds).ne_of_expression (met holds) (.leaf (.expression isLeaf)) ?_
    intro own
    simp [leafName?, own.reads] at isLeaf
  by_cases isVariable : node.form = .variableName
  · unfold traceNode
    rw [isVariable]
    exact traceVariable_attributes grounded attributor attends isVariable met
  · by_cases followed : node.form = .call ∧ memory.tracer.followsCalls = true
    · obtain ⟨isCall, follows⟩ := followed
      unfold traceNode
      rw [isCall]
      cases callee : calleeOf program.rules node with
      | dynamic text =>
          refine (Concludes.traceCall_dynamic_iff callee).2 ?_
          refine ⟨fun holds => HoldsOwn.single_of_ne (own holds text ?_) _, attends.of_eq rfl rfl rfl rfl⟩
          simp [leafName?, isCall, callee]
      | input label =>
          refine (Concludes.traceCall_input_iff callee).2 ?_
          refine ⟨fun holds => HoldsOwn.single_of_ne (own holds (label ++ "()") ?_) _, attends⟩
          simp [leafName?, isCall, callee]
      | named target =>
          refine (Concludes.traceCall_iff callee).2 ?_
          rw [if_pos follows]
          refine Concludes.mono
            (followCall_attributes grounded attributor closed attends member isCall callee met) ?_
            fun _ _ holds => holds
          rintro answer after ⟨given, attends⟩
          cases answer with
          | some deps => exact ⟨given deps rfl, attends⟩
          | none =>
              have listed : valueParts program.rules node = node.arguments := by
                simp [valueParts, isCall, callee]
              rw [listed] at parts
              refine Concludes.mono (parts after attends) ?_ fun _ _ holds => holds
              rintro results final ⟨each, attends⟩
              refine ⟨fun holds => ?_, attends⟩
              have joined := HoldsOwn.joinParts (own holds) fun deps listed => each deps listed holds
              simpa [joinParts, isCall, callee] using joined
    · refine (Concludes.traceNode_iff isVariable ?_).2 ?_
      · intro isCall
        exact Bool.eq_false_iff.2 fun follows => followed ⟨isCall, follows⟩
      · refine Concludes.mono (parts _ (attends.noted program.rules node)) ?_ fun _ _ holds => holds
        rintro results after ⟨each, attends⟩
        exact ⟨fun holds => .joinParts (own holds) fun deps listed => each deps listed holds, attends⟩

end Calls

section Runs

variable {roots : List Node} {program : Program} {name : String} {memory : Memory}

/-- However deep it may go, tracing keeps leaves with their functions. -/
theorem visitor_attributes (grounded : Grounded (nodesOf roots) program) (depth : Nat) :
    Attributor program (nodesOf roots) name (visitor depth) := by
  have closed : forall node part, node ∈ nodesOf roots -> part.Inside node ->
      part ∈ nodesOf roots := fun _ _ member inside => inside.occurs roots member
  induction depth with
  | zero => exact ⟨fun _ _ _ _ _ attends _ => attends, fun _ _ _ _ _ _ _ attends _ => attends⟩
  | succ depth inductionHypothesis =>
      refine ⟨?_, ?_⟩
      · intro watched context memory node member attends met
        exact traceNode_attributes grounded inductionHypothesis closed attends member met
      · intro watched context memory other definition member defines attends met
        exact traceDefinition_attributes grounded inductionHypothesis attends
          (closed definition · member) defines met

/-- Whatever was traced before, every summary keeps an uncaptured name as its own
parameter only. -/
theorem Reached.summariesOwn (grounded : Grounded (nodesOf roots) program)
    (reached : Reached program (nodesOf roots) memory) (name : String) :
    SummariesOwn program (nodesOf roots) name memory := by
  have traced : forall before, Coherent (nodesOf roots) before ->
      SummariesOwn program (nodesOf roots) name before ->
      forall node, node ∈ nodesOf roots -> forall parameters followsCalls,
      Concludes program before (withTracer (Tracer.fresh parameters followsCalls) (trace node))
        (fun _ after => SummariesOwn program (nodesOf roots) name after)
        (fun _ after => SummariesOwn program (nodesOf roots) name after) := by
    intro before coherent summarized node member parameters followsCalls
    have attends : Attends program (nodesOf roots) name False node
        (before.withTracer (Tracer.fresh parameters followsCalls)) :=
      .fresh coherent summarized False.elim False.elim followsCalls
    refine (Concludes.withTracer_iff _ _).2 ?_
    refine Concludes.mono ((visitor_attributes grounded program.depth).trace False node _ node member
      attends False.elim) ?_ ?_
    · rintro deps after ⟨_, later⟩
      exact later.summarized
    · intro fault after later
      exact later.summarized
  induction reached with
  | start => rintro key summary ⟨⟩
  | returned earlier member parameters followsCalls ended inductionHypothesis =>
      exact (traced _ (earlier.coherent grounded).1 inductionHypothesis _ member parameters
        followsCalls).of_ok ended
  | failed earlier member parameters followsCalls ended inductionHypothesis =>
      exact (traced _ (earlier.coherent grounded).1 inductionHypothesis _ member parameters
        followsCalls).of_error ended

/-- The summary of a function is that of a node with its key, and keeps an uncaptured
name only as a parameter that the function reads. -/
theorem summarizeFunction_own (grounded : Grounded (nodesOf roots) program)
    (reached : Reached program (nodesOf roots) memory) {declaration : Node}
    (member : declaration ∈ nodesOf roots) {summary : Summary} {after : Memory}
    (summarized : summarizeFunction declaration program memory = .ok summary after)
    (name : String) :
    (summary.declaration ∈ nodesOf roots ∧ summary.declaration.key = declaration.key) ∧
      (Uncaptured program (nodesOf roots) name summary.declaration ->
        EachOwn program (nodesOf roots) name summary.declaration summary.returns) := by
  have attends : Attends program (nodesOf roots) name False declaration memory :=
    ⟨(reached.coherent grounded).1, False.elim, False.elim, False.elim, False.elim,
      reached.summariesOwn grounded name⟩
  have built := summaryOf_attributes (visitor_attributes grounded program.depth) attends member
    fun part inside => inside.occurs roots member
  exact (built.of_ok summarized).1

end Runs

end PhpTaint.Flow
