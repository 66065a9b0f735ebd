import PhpTaint.Flow.Expression
import PhpTaint.Proofs.Annotation.Comments
import PhpTaint.Proofs.Taint.Resemblance

/-!
# Tracing beside a program without comments

`Beside` relates a step of tracing in a program to a step in the same program
without comments: from memories that have read the same names, follow the same
definitions and hold summaries of the same functions, both end alike, in such
memories. What the two sides found differs only in that one of them refers to
nodes with comments in them. This module has the steps of the monad and the
rules for variables.

The gaps that a trace notes are not compared: a comment that is traced is one.
-/

namespace PhpTaint.Flow

open Annotation Rules Scopes Syntax

/-- Dependencies that point to the same definitions with and without comments. -/
abbrev SameDeps (first second : Deps) : Prop :=
  Dependencies.Resembles (Binding.Resembles Node.StripsTo) first second

/-- Records of one leaf that point to the same definition with and without
comments. -/
abbrev SameLeaf (first second : LeafRecord) : Prop :=
  Record.Resembles (Binding.Resembles Node.StripsTo) first second

/-- Two tracers side by side. -/
structure Tracer.Resembles (first second : Tracer) : Prop where
  parameters : second.parameters = first.parameters
  followsCalls : second.followsCalls = first.followsCalls
  records : first.records.Resembles SameLeaf second.records
  active : second.active = first.active
  traced : first.traced.Resembles SameDeps second.traced

/-- Two summaries of one function. -/
structure Summary.Resembles (first second : Summary) : Prop where
  declaration : first.declaration.StripsTo second.declaration
  returns : first.returns.Resembles SameDeps second.returns

/-- Two memories side by side. Their notes are not compared. -/
structure Memory.Resembles (first second : Memory) : Prop where
  tracer : first.tracer.Resembles second.tracer
  summaries : first.summaries.Resembles Summary.Resembles second.summaries
  inProgress : second.inProgress = first.inProgress

/-- Two annotated programs, the second one without comments. -/
structure Program.Resembles (program bare : Program) : Prop where
  registry : program.registry.Resembles Node.StripsTo SameNotes program.globalScope bare.registry
  globalScope : bare.globalScope = program.globalScope
  rules : bare.rules = program.rules
  depth : bare.depth = program.depth

variable {program bare : Program} {α β γ δ : Type} {values : α -> β -> Prop}
  {results : γ -> δ -> Prop}

/-- From memories side by side, a step in a program and a step in the program
without comments end alike. -/
def Beside (program bare : Program) (values : α -> β -> Prop) (step : Tracing α)
    (bareStep : Tracing β) : Prop :=
  Tandem Memory.Resembles values (step program) (bareStep bare)

namespace Beside

theorem pure {first : α} {second : β} (related : values first second) :
    Beside program bare values (pure first) (pure second) :=
  Tandem.pure related

theorem throw (fault : Fault) :
    Beside program bare values (throw fault) (throw fault) :=
  Tandem.throw fault

/-- Two steps side by side go on side by side. -/
theorem bind {step : Tracing α} {bareStep : Tracing β} {next : α -> Tracing γ}
    {bareNext : β -> Tracing δ} (both : Beside program bare values step bareStep)
    (continues : forall first second, values first second ->
      Beside program bare results (next first) (bareNext second)) :
    Beside program bare results (step >>= next) (bareStep >>= bareNext) :=
  Tandem.bind both continues

theorem bind_eq {step bareStep : Tracing α} {next : α -> Tracing γ} {bareNext : α -> Tracing δ}
    (both : Beside program bare Eq step bareStep)
    (continues : forall value, Beside program bare results (next value) (bareNext value)) :
    Beside program bare results (step >>= next) (bareStep >>= bareNext) :=
  Tandem.bind_eq both continues

/-- What a step reads of the program may be taken as known. -/
theorem read {next : Program -> Tracing γ} {bareNext : Program -> Tracing δ}
    (continues : Beside program bare results (next program) (bareNext bare)) :
    Beside program bare results (read >>= next) (read >>= bareNext) :=
  continues

/-- What is read from the two memories may differ as the memories do. -/
theorem get {next : Memory -> Tracing γ} {bareNext : Memory -> Tracing δ}
    (continues : forall first second, first.Resembles second ->
      Beside program bare results (next first) (bareNext second)) :
    Beside program bare results (get >>= next) (get >>= bareNext) :=
  fun first second before => continues first second before first second before

/-- A change that keeps two memories alike is made side by side. -/
theorem modify {change bareChange : Memory -> Memory}
    (kept : forall first second, first.Resembles second ->
      (change first).Resembles (bareChange second)) :
    Beside program bare Eq (modify change) (modify bareChange) :=
  Tandem.change kept

/-- A value of the first side may be changed afterwards. -/
theorem map_left {step : Tracing α} {bareStep : Tracing β} {change : α -> γ}
    {changed : γ -> β -> Prop} (both : Beside program bare values step bareStep)
    (related : forall first second, values first second -> changed (change first) second) :
    Beside program bare changed (do let value ← step; return change value) bareStep := by
  have unchanged : Beside program bare changed (do let value ← step; return change value)
      (bareStep >>= Pure.pure) :=
    both.bind fun first second same => pure (related first second same)
  rwa [bind_pure] at unchanged

/-- A choice by one condition is made side by side. -/
theorem ite {condition : Prop} [Decidable condition] {first other : Tracing α}
    {second another : Tracing β}
    (chosen : condition -> Beside program bare values first second)
    (otherwise : ¬ condition -> Beside program bare values other another) :
    Beside program bare values (if condition then first else other)
      (if condition then second else another) := by
  by_cases holds : condition
  · simpa only [if_pos holds] using chosen holds
  · simpa only [if_neg holds] using otherwise holds

/-- A pass over a list beside the pass over the items that are kept. -/
theorem foldlM_filter {ι κ : Type} {items : List ι} {keep : ι -> Bool} {image : ι -> κ}
    {step : α -> ι -> Tracing α} {bareStep : β -> κ -> Tracing β}
    (kept : forall item, item ∈ items -> keep item = true -> forall first second,
      values first second ->
      Beside program bare values (step first item) (bareStep second (image item)))
    (silent : forall item, item ∈ items -> keep item = false -> forall first second,
      values first second -> Beside program bare values (step first item) (Pure.pure second))
    {first : α} {second : β} (start : values first second) :
    Beside program bare values (items.foldlM step first)
      (((items.filter keep).map image).foldlM bareStep second) := by
  induction items generalizing first second with
  | nil => exact pure start
  | cons item rest inductionHypothesis =>
      have later : forall {first : α} {second : β}, values first second ->
          Beside program bare values (rest.foldlM step first)
            (((rest.filter keep).map image).foldlM bareStep second) :=
        inductionHypothesis (fun other member => kept other (List.mem_cons_of_mem _ member))
          fun other member => silent other (List.mem_cons_of_mem _ member)
      cases keeps : keep item with
      | true =>
          rw [List.filter_cons_of_pos keeps, List.map_cons, List.foldlM_cons, List.foldlM_cons]
          exact (kept item (List.mem_cons_self ..) keeps _ _ start).bind fun _ _ => later
      | false =>
          rw [List.filter_cons_of_neg (by simp [keeps]), List.foldlM_cons]
          exact Tandem.bind_silent (silent item (List.mem_cons_self ..) keeps _ _ start)
            fun _ => later

/-- A list and its image are folded side by side. -/
theorem foldlM_map {ι κ : Type} {items : List ι} {image : ι -> κ} {step : α -> ι -> Tracing α}
    {bareStep : β -> κ -> Tracing β}
    (each : forall item, item ∈ items -> forall first second, values first second ->
      Beside program bare values (step first item) (bareStep second (image item)))
    {first : α} {second : β} (start : values first second) :
    Beside program bare values (items.foldlM step first)
      ((items.map image).foldlM bareStep second) := by
  have kept := @foldlM_filter program bare α β values ι κ items (fun _ => true) image step bareStep
    (fun item member _ => each item member) (fun _ _ dropped => by cases dropped) first second start
  rwa [List.filter_true] at kept

/-- A list and its image are traced side by side. -/
theorem mapM_map {ι κ : Type} {items : List ι} {image : ι -> κ} {step : ι -> Tracing α}
    {bareStep : κ -> Tracing β}
    (each : forall item, item ∈ items ->
      Beside program bare values (step item) (bareStep (image item))) :
    Beside program bare (List.Forall₂ values) (items.mapM step) ((items.map image).mapM bareStep) := by
  induction items with
  | nil => exact pure .nil
  | cons item rest inductionHypothesis =>
      rw [List.map_cons, List.mapM_cons, List.mapM_cons]
      refine (each item (List.mem_cons_self ..)).bind fun _ _ head => ?_
      refine (inductionHypothesis fun other member =>
        each other (List.mem_cons_of_mem _ member)).bind fun _ _ later => ?_
      exact pure (.cons head later)

/-- The same answers, or the same faults, are passed on side by side. -/
theorem orFault {answer : Except Fault α} {other : Except Fault β}
    (same : SameAnswer values answer other) :
    Beside program bare values (orFault answer) (orFault other) := by
  cases same with
  | ok related => exact pure related
  | error fault => exact throw fault

/-- Notes are not compared. -/
theorem remark (text other : String) : Beside program bare Eq (remark text) (remark other) :=
  modify fun _ _ before => ⟨before.tracer, before.summaries, before.inProgress⟩

theorem updateTracer {change bareChange : Tracer -> Tracer}
    (kept : forall first second, first.Resembles second ->
      (change first).Resembles (bareChange second)) :
    Beside program bare Eq (updateTracer change) (updateTracer bareChange) :=
  modify fun _ _ before => ⟨kept _ _ before.tracer, before.summaries, before.inProgress⟩

/-- What is noted of a construct that was not followed is not compared. -/
theorem giveUp (kind other : String) (node image : Node) :
    Beside program bare Eq (giveUp kind node) (giveUp other image) :=
  bind_eq (remark _ _) fun _ => updateTracer fun _ _ before =>
    ⟨before.parameters, before.followsCalls, before.records, before.active, before.traced⟩

/-- Tracers that resemble each other work side by side and come back alike. -/
theorem withTracer {tracer other : Tracer} (tracers : tracer.Resembles other)
    {step : Tracing α} {bareStep : Tracing β} (both : Beside program bare values step bareStep) :
    Beside program bare (fun first second => values first.1 second.1 ∧ first.2.Resembles second.2)
      (withTracer tracer step) (withTracer other bareStep) := by
  intro first second before
  unfold Flow.withTracer
  have ended := both { first with tracer := tracer } { second with tracer := other }
    ⟨tracers, before.summaries, before.inProgress⟩
  generalize step program { first with tracer := tracer } = outcome at ended
  generalize bareStep bare { second with tracer := other } = bareOutcome at ended
  cases ended with
  | ok related after =>
      exact .ok ⟨related, after.tracer⟩ ⟨before.tracer, after.summaries, after.inProgress⟩
  | error fault after => exact .error fault ⟨before.tracer, after.summaries, after.inProgress⟩

/-- A definition is marked on both sides while it is followed, and unmarked afterwards. -/
theorem whileActive (key : Key) {step : Tracing α} {bareStep : Tracing β}
    (both : Beside program bare values step bareStep) :
    Beside program bare values (whileActive key step) (whileActive key bareStep) := by
  have released : forall {first second : Memory}, first.Resembles second ->
      Memory.Resembles
        { first with tracer :=
            { first.tracer with active := first.tracer.active.filter fun other => other ≠ key } }
        { second with tracer :=
            { second.tracer with active := second.tracer.active.filter fun other => other ≠ key } } :=
    fun after =>
      ⟨⟨after.tracer.parameters, after.tracer.followsCalls, after.tracer.records,
        congrArg (List.filter _) after.tracer.active, after.tracer.traced⟩,
        after.summaries, after.inProgress⟩
  intro first second before
  unfold Flow.whileActive
  have ended := both
    { first with tracer := { first.tracer with active := key :: first.tracer.active } }
    { second with tracer := { second.tracer with active := key :: second.tracer.active } }
    ⟨⟨before.tracer.parameters, before.tracer.followsCalls, before.tracer.records,
      congrArg (key :: ·) before.tracer.active, before.tracer.traced⟩,
      before.summaries, before.inProgress⟩
  generalize step program _ = outcome at ended
  generalize bareStep bare _ = bareOutcome at ended
  cases ended with
  | ok related after => exact .ok related (released after)
  | error fault after => exact .error fault (released after)

/-- A declaration is marked on both sides while its summary is built. -/
theorem whileInProgress (key : Key) {step : Tracing α} {bareStep : Tracing β}
    (both : Beside program bare values step bareStep) :
    Beside program bare values (whileInProgress key step) (whileInProgress key bareStep) := by
  intro first second before
  unfold Flow.whileInProgress
  have ended := both { first with inProgress := key :: first.inProgress }
    { second with inProgress := key :: second.inProgress }
    ⟨before.tracer, before.summaries, congrArg (key :: ·) before.inProgress⟩
  generalize step program _ = outcome at ended
  generalize bareStep bare _ = bareOutcome at ended
  cases ended with
  | ok related after =>
      exact .ok related ⟨after.tracer, after.summaries, congrArg (List.filter _) after.inProgress⟩
  | error fault after =>
      exact .error fault ⟨after.tracer, after.summaries, congrArg (List.filter _) after.inProgress⟩

end Beside

theorem Tracer.Resembles.fresh (parameters : List String) (followsCalls : Bool) :
    (Tracer.fresh parameters followsCalls).Resembles (Tracer.fresh parameters followsCalls) :=
  ⟨rfl, rfl, .empty, rfl, .empty⟩

/-- A leaf of unknown origin is the same for definitions that resemble each other. -/
theorem unknownLeaf_same (name : String) {definition other : Option (Binding Node)}
    (related : Option.Rel (Binding.Resembles Node.StripsTo) definition other) :
    SameDeps (unknownLeaf name definition) (unknownLeaf name other) :=
  Dependencies.single_resembles name (.leaf name .unknown related)

theorem parameterLeaf_same (name : String) : SameDeps (parameterLeaf name) (parameterLeaf name) :=
  Dependencies.single_resembles name (.unassigned name)

section Variables

variable (programs : program.Resembles bare)

include programs

/-- A node that is no comment stands in the same scope. -/
theorem scopeOfNode_beside {node : Node} (code : node.isComment = false) :
    Beside program bare Eq (scopeOfNode node) (scopeOfNode node.stripped) := by
  unfold scopeOfNode
  refine Beside.read (Beside.orFault ?_)
  have kind : node.key.kind ≠ "comment" := of_decide_eq_false code
  have stands := programs.registry.annotations program.globalScope node.key kind
  have described : Referent.describe node.stripped = Referent.describe node :=
    node.describe_stripped
  have global : bare.registry.isGlobal program.globalScope = true := by
    rw [programs.registry.isGlobal_eq, programs.registry.root]
  unfold Registry.scopeOf
  rw [programs.globalScope, global, programs.registry.root, described]
  simp only [if_true, BEq.beq, Node.key_stripped]
  generalize (program.registry.historyOf program.globalScope).annotations.find? _ = left at stands
  generalize (bare.registry.historyOf program.globalScope).annotations.find? _ = right at stands
  cases left with
  | none =>
      cases right with
      | none => exact .error _
      | some entry => cases stands
  | some entry =>
      cases right with
      | none => cases stands
      | some other =>
          obtain ⟨_, scope⟩ := entry
          obtain ⟨_, otherScope⟩ := other
          exact .ok (Option.some.inj stands)

/-- A variable is found by its binding, which resembles the one of the stripped variable. -/
theorem lookupVariable_beside (name : String) {node : Node} (code : node.isComment = false) :
    Beside program bare SameLeaf (lookupVariable name node) (lookupVariable name node.stripped) := by
  unfold lookupVariable
  refine Beside.bind_eq (scopeOfNode_beside programs code) fun scope => Beside.read ?_
  have found := programs.registry.resolveVariable scope name
  generalize program.registry.resolveVariable scope name = left at found
  generalize bare.registry.resolveVariable scope name = right at found
  cases found with
  | ok related => exact Beside.pure (.leaf name .unassigned (.some related))
  | error fault =>
      refine Beside.bind_eq (Beside.remark _ _) fun _ => ?_
      refine Beside.bind_eq (Beside.updateTracer fun _ _ before => ?_) fun _ =>
        Beside.pure (.leaf name .unknown .none)
      exact ⟨before.parameters, before.followsCalls, before.records, before.active, before.traced⟩

/-- A variable that was read before has the record of its first reading on both sides. -/
theorem resolveVariable_beside (name : String) {node : Node} (code : node.isComment = false) :
    Beside program bare SameLeaf (resolveVariable name node)
      (resolveVariable name node.stripped) := by
  unfold resolveVariable
  refine Beside.get fun first second before => ?_
  have found := before.tracer.records.find? name
  generalize first.tracer.records.find? name = left at found
  generalize second.tracer.records.find? name = right at found
  cases found with
  | some related => exact Beside.pure related
  | none =>
      have keeping : forall record other, SameLeaf record other -> Beside program bare SameLeaf
          (do
            updateTracer fun tracer => { tracer with records := tracer.records.insert name record }
            return record)
          (do
            updateTracer fun tracer => { tracer with records := tracer.records.insert name other }
            return other) := fun record other related =>
        Beside.bind_eq
          (Beside.updateTracer fun _ _ states =>
            ⟨states.parameters, states.followsCalls, states.records.insert name related,
              states.active, states.traced⟩)
          fun _ => Beside.pure related
      rw [before.tracer.parameters]
      refine Beside.ite (fun _ => ?_) fun _ => ?_
      · exact Beside.bind (Beside.pure (.unassigned name)) keeping
      · exact (lookupVariable_beside programs name code).bind keeping

/-- Two visitors for definitions side by side. -/
abbrev DefinitionsBeside (program bare : Program)
    (follow bareFollow : String -> Node -> Tracing Deps) : Prop :=
  forall name node, node.Undisturbed ->
    Beside program bare SameDeps (follow name node) (bareFollow name node.stripped)

variable {follow bareFollow : String -> Node -> Tracing Deps}
  (definitions : DefinitionsBeside program bare follow bareFollow)

include definitions

omit programs in
/-- A definition is followed side by side with its stripped form. -/
theorem followDefinition_beside (name : String) {definition : Node}
    (undisturbed : definition.Undisturbed) :
    Beside program bare SameDeps (followDefinition follow name definition)
      (followDefinition bareFollow name definition.stripped) := by
  unfold followDefinition
  rw [definition.key_stripped]
  refine Beside.get fun first second before => ?_
  have found := before.tracer.traced.find? definition.key
  generalize first.tracer.traced.find? definition.key = left at found
  generalize second.tracer.traced.find? definition.key = right at found
  cases found with
  | some related => exact Beside.pure related
  | none =>
      rw [before.tracer.active]
      refine Beside.ite (fun _ => ?_) fun _ => ?_
      · exact Beside.bind_eq (Beside.remark _ _) fun _ => Beside.pure .empty
      · refine (Beside.whileActive _ (definitions name definition undisturbed)).bind
          fun deps other related => ?_
        refine Beside.bind_eq (Beside.updateTracer fun _ _ states => ?_) fun _ =>
          Beside.pure related
        exact ⟨states.parameters, states.followsCalls, states.records, states.active,
          states.traced.insert _ related⟩

omit programs in
/-- A binding is followed side by side with one that resembles it. -/
theorem followBinding_beside (name : String) {binding other : Binding Node}
    (related : binding.Resembles Node.StripsTo other) :
    Beside program bare SameDeps (followBinding follow name binding)
      (followBinding bareFollow name other) := by
  cases related with
  | referent nodes =>
      obtain ⟨undisturbed, rfl⟩ := nodes
      exact followDefinition_beside definitions name undisturbed
  | parameter parameter node image index =>
      refine Beside.get fun first second before => ?_
      rw [before.tracer.parameters]
      exact Beside.ite (fun _ => Beside.pure (parameterLeaf_same name)) fun _ =>
        Beside.pure (unknownLeaf_same name (.some (.parameter parameter node image index)))
  | superglobal shared owner =>
      exact Beside.pure (unknownLeaf_same name (.some (.superglobal shared owner)))
  | globalReference | unset => exact Beside.pure (unknownLeaf_same name .none)

/-- A leaf is followed side by side with one that resembles it. -/
theorem followRecord_beside {record other : LeafRecord} (related : SameLeaf record other) :
    Beside program bare SameDeps (followRecord follow record) (followRecord bareFollow other) := by
  obtain ⟨name, level, sanitizers, definition, common, revoked⟩ := record
  obtain ⟨otherName, otherLevel, otherSanitizers, otherDefinition, otherCommon, otherRevoked⟩ :=
    other
  have same : otherName = name := related.name
  subst same
  have points : Option.Rel (Binding.Resembles Node.StripsTo) definition otherDefinition :=
    related.definition
  cases points with
  | none => exact Beside.pure (Dependencies.single_resembles otherName related)
  | some binding =>
      cases binding with
      | globalReference variableName node image owner =>
          refine Beside.read ?_
          have found := programs.registry.resolveGlobalVariable owner variableName
          dsimp only [Registry.followReference]
          generalize program.registry.resolveGlobalVariable owner variableName = left at found ⊢
          generalize bare.registry.resolveGlobalVariable owner variableName = right at found ⊢
          cases found with
          | ok bindings => exact followBinding_beside definitions otherName bindings
          | error fault =>
              exact Beside.bind_eq (Beside.remark _ _) fun _ =>
                Beside.pure (unknownLeaf_same otherName .none)
      | referent nodes => exact followBinding_beside definitions otherName (.referent nodes)
      | parameter parameter node image index =>
          exact followBinding_beside definitions otherName (.parameter parameter node image index)
      | superglobal shared owner =>
          exact followBinding_beside definitions otherName (.superglobal shared owner)
      | unset => exact followBinding_beside definitions otherName .unset

omit programs definitions in
/-- A definition is being followed on both sides or on neither. -/
theorem isActive_eq {tracer other : Tracer} (tracers : tracer.Resembles other)
    {definition image : Option (Binding Node)}
    (related : Option.Rel (Binding.Resembles Node.StripsTo) definition image) :
    isActive other image = isActive tracer definition := by
  cases related with
  | none => rfl
  | some binding =>
      cases binding with
      | referent nodes =>
          obtain ⟨-, rfl⟩ := nodes
          simp [isActive, tracers.active]
      | _ => rfl

omit programs definitions in
/-- A variable is no comment. -/
theorem isComment_of_isVariable {node : Node} (isVariable : node.isVariable = true) :
    node.isComment = false := by
  have kind : node.kind = "variable_name" := of_decide_eq_true isVariable
  unfold Node.isComment
  rw [kind]
  rfl

theorem traceVariable_beside {node : Node} (code : node.isComment = false) :
    Beside program bare SameDeps (traceVariable follow node)
      (traceVariable bareFollow node.stripped) := by
  unfold traceVariable
  rw [node.text_stripped]
  refine (resolveVariable_beside programs node.text code).bind fun record other related => ?_
  refine Beside.read ?_
  rw [programs.rules]
  refine Beside.ite (fun _ => ?_) fun _ => Beside.get fun first second before => ?_
  · have tainted := related.withLevel .tainted
    refine Beside.bind_eq (Beside.updateTracer fun _ _ states => ?_) fun _ =>
      Beside.pure (Dependencies.single_resembles node.text tainted)
    exact ⟨states.parameters, states.followsCalls, states.records.insert _ tainted,
      states.active, states.traced⟩
  · rw [isActive_eq before.tracer related.definition]
    refine Beside.ite (fun _ => ?_) fun _ => ?_
    · exact (lookupVariable_beside programs node.text code).bind fun _ _ visible =>
        followRecord_beside programs definitions visible
    · exact Beside.bind (Beside.pure related) fun _ _ visible =>
        followRecord_beside programs definitions visible

/-- What a variable held before an assignment is the same on both sides. -/
theorem priorValue_beside (name : String) {left : Node} (undisturbed : left.Undisturbed) :
    Beside program bare SameDeps (priorValue follow name left)
      (priorValue bareFollow name left.stripped) := by
  have base : (if isContainerKind left.stripped.kind then left.stripped.containerBase
        else some left.stripped) =
      (if isContainerKind left.kind then left.containerBase else some left).map Node.stripped := by
    rw [left.kind_stripped, undisturbed.containerBase_stripped]
    split <;> rfl
  unfold priorValue
  simp only [base]
  cases (if isContainerKind left.kind then left.containerBase else some left) with
  | none => exact Beside.pure .empty
  | some start =>
      simp only [Option.map_some, start.isVariable_stripped]
      refine Beside.ite (fun _ => Beside.pure .empty) fun isVariable => ?_
      have code : start.isComment = false := isComment_of_isVariable (by simpa using isVariable)
      refine Beside.read (Beside.get fun first second before => ?_)
      rw [programs.rules, before.tracer.parameters]
      refine Beside.ite (fun _ => ?_) fun _ => Beside.ite (fun _ => ?_) fun _ => ?_
      · exact Beside.pure (Dependencies.single_resembles name (.leaf name .tainted .none))
      · exact Beside.pure (parameterLeaf_same name)
      · refine Beside.bind_eq (scopeOfNode_beside programs code) fun scope => ?_
        have found := programs.registry.resolveVariable scope name
        generalize program.registry.resolveVariable scope name = answer at found
        generalize bare.registry.resolveVariable scope name = other at found
        cases found with
        | ok related =>
            exact followRecord_beside programs definitions (.leaf name .unassigned (.some related))
        | error fault => exact Beside.pure .empty

end Variables

end PhpTaint.Flow
