import PhpTaint.Proofs.Flow.Safety

/-!
# Steps that are uniform in their visitor

The rules of tracing are written against a visitor. `Uniform` lists the ways in
which a rule may use one: it asks for traces and definitions, looks at the
running tracer, changes it, takes notes, and enters the summary of a declaration
unless that summary is being built. What holds of all these ways holds of every
rule, so a property of two visitors, or of one, is proved by one induction and
not once for each rule.
-/

namespace PhpTaint.Flow

open Scopes Syntax Rules

/-- Whether a note says that a call was not followed because the summary of its
function is being built. -/
def isRecursionNote (note : Note) : Bool := Text.beginsWith note.text "Recursive call to "

/-- Enter the summary of a declaration; while it is being built, take a note and
give the answer that stands for it. -/
def enterSummary {α : Type} (declaration : Node) (text : String) (answer : α)
    (next : Summary -> Visitor -> Tracing α) (visitor : Visitor) : Tracing α := do
  if (← get).inProgress.contains declaration.key then
    remark text
    return answer
  else
    let summary ← summaryOf visitor.trace declaration
    next summary visitor

/-- A step that uses its visitor in no other way than the rules of tracing do. The
summaries that it enters are those of the given declarations. -/
inductive Uniform (program : Program) (declared : Node -> Prop) :
    {α : Type} -> (Visitor -> Tracing α) -> Prop where
  /-- A value. -/
  | pure {α : Type} (value : α) : Uniform program declared fun _ => pure value
  /-- The result of a lookup. -/
  | orFault {α : Type} (result : Except Fault α) : Uniform program declared fun _ => orFault result
  /-- A look at the program. -/
  | read {α : Type} {next : Program -> Visitor -> Tracing α}
      (continues : Uniform program declared (next program)) :
      Uniform program declared fun visitor => read >>= fun program => next program visitor
  /-- A look at the running tracer. -/
  | look {α : Type} {next : Memory -> Visitor -> Tracing α}
      (tracerOnly : forall first second : Memory, first.tracer = second.tracer ->
        next first = next second)
      (continues : forall memory, Uniform program declared (next memory)) :
      Uniform program declared fun visitor => get >>= fun memory => next memory visitor
  /-- A note. -/
  | remark (text : String) : Uniform program declared fun _ => remark text
  /-- A change of the running tracer. -/
  | updateTracer (change : Tracer -> Tracer) :
      Uniform program declared fun _ => updateTracer change
  /-- The trace of an expression. -/
  | trace (node : Node) : Uniform program declared fun visitor => visitor.trace node
  /-- The trace of a definition. -/
  | definition (name : String) (node : Node) :
      Uniform program declared fun visitor => visitor.definition name node
  /-- One step after another. -/
  | bind {α β : Type} {first : Visitor -> Tracing β} {next : β -> Visitor -> Tracing α}
      (begins : Uniform program declared first)
      (continues : forall value, Uniform program declared (next value)) :
      Uniform program declared fun visitor => first visitor >>= fun value => next value visitor
  /-- A step while a definition counts as being followed. -/
  | whileActive {α : Type} {step : Visitor -> Tracing α} (key : Key)
      (inner : Uniform program declared step) :
      Uniform program declared fun visitor => whileActive key (step visitor)
  /-- The summary of a declaration. -/
  | summary {α : Type} {declaration : Node} {text : String} {answer : α}
      {next : Summary -> Visitor -> Tracing α} (declares : declared declaration)
      (noted : isRecursionNote ⟨.debug, .flow, text⟩ = true)
      (returns : forall body, declaration.child? "body" = some body ->
        Uniform program declared fun visitor => traceReturns visitor.trace declaration body)
      (continues : forall summary, Uniform program declared (next summary)) :
      Uniform program declared (enterSummary declaration text answer next)

namespace Uniform

variable {α β : Type} {program : Program} {declared : Node -> Prop}

/-- A uniform step may change its result at the end. -/
theorem map {step : Visitor -> Tracing β} (uniform : Uniform program declared step)
    (change : β -> α) :
    Uniform program declared fun visitor => step visitor >>= fun value => Pure.pure (change value) :=
  .bind uniform fun value => .pure (change value)

/-- A choice that does not look at the visitor is uniform. -/
theorem choice {condition : Prop} [Decidable condition] {first second : Visitor -> Tracing α}
    (chosen : Uniform program declared first) (other : Uniform program declared second) :
    Uniform program declared fun visitor =>
      if condition then first visitor else second visitor := by
  by_cases holds : condition
  · simpa only [if_pos holds] using chosen
  · simpa only [if_neg holds] using other

/-- A list of uniform steps is uniform. -/
theorem mapM {step : Visitor -> β -> Tracing α} (items : List β)
    (each : forall item, Uniform program declared fun visitor => step visitor item) :
    Uniform program declared fun visitor => items.mapM (step visitor) := by
  induction items with
  | nil =>
      simp only [List.mapM_nil]
      exact .pure []
  | cons item rest inductionHypothesis =>
      simp only [List.mapM_cons]
      exact .bind (each item) fun value => inductionHypothesis.map fun values => value :: values

/-- A fold over uniform steps is uniform. -/
theorem foldlM {step : Visitor -> α -> β -> Tracing α} (items : List β) (start : α)
    (each : forall value item, Uniform program declared fun visitor => step visitor value item) :
    Uniform program declared fun visitor => items.foldlM (step visitor) start := by
  induction items generalizing start with
  | nil =>
      simp only [List.foldlM_nil]
      exact .pure start
  | cons item rest inductionHypothesis =>
      simp only [List.foldlM_cons]
      exact .bind (each start item) inductionHypothesis

/-- Looking up where a node stands asks the program only. -/
theorem scopeOfNode (node : Node) : Uniform program declared fun _ => scopeOfNode node :=
  .read (.orFault _)

/-- Giving up on a construct changes the running tracer and takes a note. -/
theorem giveUp (kind : String) (node : Node) :
    Uniform program declared fun _ => giveUp kind node :=
  .bind (.remark _) fun _ => .updateTracer _

section Variables

/-- Looking up a variable asks the program and changes the running tracer. -/
theorem lookupVariable (name : String) (node : Node) :
    Uniform program declared fun _ => lookupVariable name node := by
  refine .bind (scopeOfNode node) fun scope => .read ?_
  cases program.registry.resolveVariable scope name with
  | ok binding => exact .pure _
  | error fault => exact .bind (.remark _) fun _ => .bind (.updateTracer _) fun _ => .pure _

/-- A variable that was read before is taken from the running tracer. -/
theorem resolveVariable (name : String) (node : Node) :
    Uniform program declared fun _ => resolveVariable name node := by
  refine .look ?_ fun memory => ?_
  · rintro ⟨tracer, _, _, _⟩ ⟨_, _, _, _⟩ rfl
    rfl
  · cases memory.tracer.records.find? name with
    | some record => exact .pure record
    | none =>
        exact .choice
          (.bind (.pure _) fun record => .bind (.updateTracer _) fun _ => .pure record)
          (.bind (lookupVariable name node) fun record =>
            .bind (.updateTracer _) fun _ => .pure record)

/-- A definition is followed through the visitor and marked in the running tracer. -/
theorem followDefinition (name : String) (definition : Node) :
    Uniform program declared fun visitor => followDefinition visitor.definition name definition := by
  refine .look ?_ fun memory => ?_
  · rintro ⟨tracer, _, _, _⟩ ⟨_, _, _, _⟩ rfl
    rfl
  · cases memory.tracer.traced.find? definition.key with
    | some deps => exact .pure deps
    | none =>
        exact .choice (.bind (.remark _) fun _ => .pure _)
          (.bind (.whileActive _ (.definition name definition)) fun deps =>
            .bind (.updateTracer _) fun _ => .pure deps)

/-- A binding is followed through the visitor if it has a definition. -/
theorem followBinding (name : String) (binding : Binding Node) :
    Uniform program declared fun visitor => followBinding visitor.definition name binding := by
  cases binding with
  | referent definition => exact followDefinition name definition
  | parameter parameter node index =>
      refine .look ?_ fun memory => ?_
      · rintro ⟨tracer, _, _, _⟩ ⟨_, _, _, _⟩ rfl
        rfl
      · exact .choice (.pure _) (.pure _)
  | superglobal | globalReference | unset => exact .pure _

/-- A leaf is followed by its definition if it has one. -/
theorem followRecord (record : LeafRecord) :
    Uniform program declared fun visitor => followRecord visitor.definition record := by
  unfold Flow.followRecord
  cases record.definition with
  | none => exact .pure _
  | some binding =>
      cases binding with
      | globalReference name node owner =>
          refine .read ?_
          cases program.registry.followReference (.globalReference name node owner) with
          | ok target => exact followBinding record.name target
          | error fault => exact .bind (.remark _) fun _ => .pure _
      | referent | parameter | superglobal | unset => exact followBinding record.name _

/-- A variable is looked up and then followed. -/
theorem traceVariable (node : Node) :
    Uniform program declared fun visitor => traceVariable visitor.definition node := by
  refine .bind (resolveVariable node.text node) fun record => .read (.choice ?_ ?_)
  · exact .bind (.updateTracer _) fun _ => .pure _
  · refine .look ?_ fun memory => ?_
    · rintro ⟨tracer, _, _, _⟩ ⟨_, _, _, _⟩ rfl
      rfl
    · exact .choice (.bind (lookupVariable node.text node) followRecord)
        (.bind (.pure record) followRecord)

/-- What a variable held before an assignment is found by following its left side. -/
theorem priorValue (name : String) (left : Node) :
    Uniform program declared fun visitor => priorValue visitor.definition name left := by
  unfold Flow.priorValue
  simp only
  split
  · exact .pure _
  · rename_i start _
    split
    · exact .pure _
    · refine .read (.look ?_ fun memory => ?_)
      · rintro ⟨tracer, _, _, _⟩ ⟨_, _, _, _⟩ rfl
        rfl
      · refine .choice (.pure _) (.choice (.pure _) (.bind (scopeOfNode start) fun scope => ?_))
        cases program.registry.resolveVariable scope name with
        | ok binding => exact followRecord _
        | error fault => exact .pure _

end Variables

section Calls

/-- An argument is traced by the visitor before it is bound. -/
theorem bindArgument (summary : Summary) (bound : Bound) (argument : Node) :
    Uniform program declared fun visitor => bindArgument visitor.trace summary bound argument := by
  unfold Flow.bindArgument
  cases argument.argumentValue with
  | some value => exact (Uniform.trace value).map _
  | none => exact .pure bound

/-- A default value is traced by the visitor if no argument took its place. -/
theorem bindDefault (arguments : Table String Deps) (parameter : Node) :
    Uniform program declared fun visitor => bindDefault visitor.trace arguments parameter := by
  unfold Flow.bindDefault
  cases parameter.child? "default_value" with
  | none => exact .pure arguments
  | some value =>
      simp only
      split
      · exact .pure arguments
      · exact (Uniform.trace value).map _

/-- Arguments and default values are bound one after the other and then substituted. -/
theorem callDependencies (summary : Summary) (arguments : List Node) :
    Uniform program declared fun visitor => callDependencies visitor.trace summary arguments :=
  map (.bind (foldlM arguments _ (bindArgument summary)) fun bound =>
    foldlM summary.parameters bound.arguments bindDefault) _

/-- The return statements of a body are traced one after the other. -/
theorem traceReturns (declaration body : Node) :
    Uniform program declared fun visitor => traceReturns visitor.trace declaration body := by
  unfold Flow.traceReturns
  split
  · exact (Uniform.trace body).map _
  · refine foldlM body.returns ∅ fun returns statement => ?_
    unfold Flow.traceReturn
    split
    · rename_i value _
      exact (Uniform.trace value).map _
    · exact .pure _

/-- A recursive call is noted as such. -/
theorem isRecursionNote_append (rest : String) :
    isRecursionNote ⟨.debug, .flow, "Recursive call to " ++ rest⟩ = true := by
  unfold isRecursionNote Text.beginsWith
  rw [String.toList_append, List.isPrefixOf_iff_prefix]
  exact List.prefix_append _ _

/-- A call enters the summary of its callee, or takes a note while that is being built. -/
theorem followCall (node : Node) (function : String)
    (declares : forall scope declaration,
      program.registry.scopeOf program.globalScope node = .ok scope ->
      program.registry.resolveFunction scope function = .ok declaration -> declared declaration) :
    Uniform program declared fun visitor => followCall visitor.trace node function := by
  unfold Flow.followCall Flow.scopeOfNode
  simp only [bind_assoc]
  refine .read ?_
  cases located : program.registry.scopeOf program.globalScope node with
  | error fault => exact .orFault (.error fault)
  | ok scope =>
      simp only [Flow.orFault, pure_bind]
      refine .read ?_
      cases resolved : program.registry.resolveFunction scope function with
      | error fault => exact .choice (.pure none) (.orFault (.error fault))
      | ok declaration =>
          have noted : isRecursionNote ⟨.debug, .flow, "Recursive call to " ++
              (normalizeName function ++ "()") ++ " at line " ++ toString node.line ++
              ", treated as unknown"⟩ = true := by
            rw [String.append_assoc, String.append_assoc, String.append_assoc]
            exact isRecursionNote_append _
          have entered : forall summary, Uniform program declared fun visitor =>
              Flow.callDependencies visitor.trace summary node.arguments >>= fun deps =>
                Pure.pure (some deps) := by
            intro summary
            exact (callDependencies summary node.arguments).map some
          exact .summary (declares scope declaration located resolved) noted
            (fun body _ => traceReturns declaration body) entered

end Calls

section Expressions

/-- A part that may be missing is traced if it is there. -/
theorem traceOptional (part : Option Node) :
    Uniform program declared fun visitor => traceOptional visitor.trace part := by
  cases part with
  | some node => exact .trace node
  | none => exact .pure ∅

/-- Parts are traced one after the other and merged. -/
theorem traceAll (parts : List Node) :
    Uniform program declared fun visitor => traceAll visitor.trace parts :=
  (mapM parts .trace).map _

/-- A call is a matter of the rules, of the summary of its callee or of its arguments. -/
theorem traceCall (node : Node)
    (declares : forall scope function declaration,
      program.registry.scopeOf program.globalScope node = .ok scope ->
      program.registry.resolveFunction scope function = .ok declaration -> declared declaration) :
    Uniform program declared fun visitor => traceCall visitor.trace node := by
  unfold Flow.traceCall
  cases node.child? "function" with
  | none => exact (giveUp _ node).map _
  | some callee =>
      refine .choice ((giveUp _ node).map _) (.read (.choice (.pure _) (.look ?_ fun memory => ?_)))
      · rintro ⟨tracer, _, _, _⟩ ⟨_, _, _, _⟩ rfl
        rfl
      · have unfollowed : Uniform program declared fun visitor =>
            node.arguments.mapM (traceThrough visitor.trace (normalizeName callee.text)) :=
          mapM node.arguments fun argument => .bind (.trace argument) fun deps => .read (.pure _)
        refine .choice
          (.bind (followCall node callee.text fun scope => declares scope callee.text) ?_)
          (.bind (.pure none) ?_)
        all_goals
          intro followed
          cases followed with
          | some deps => exact .pure deps
          | none => exact unfollowed.map _

/-- A conditional expression traces its branches. -/
theorem traceConditional (node : Node) :
    Uniform program declared fun visitor => traceConditional visitor.trace node :=
  .bind (traceOptional _) fun _ => (traceOptional _).map _

/-- A cast traces its value if it keeps texts. -/
theorem traceCast (node : Node) :
    Uniform program declared fun visitor => traceCast visitor.trace node := by
  unfold Flow.traceCast
  cases node.child? "type" with
  | none => exact .pure ∅
  | some conversion => exact .choice (traceOptional _) (.pure ∅)

/-- An assignment traces its right side, and its left one if the operator reads it. -/
theorem traceAssignment (node : Node) :
    Uniform program declared fun visitor => traceAssignment visitor.trace node := by
  refine .bind (traceOptional _) fun deps => ?_
  cases node.child? "left" with
  | none => exact .pure deps
  | some left => exact .choice ((Uniform.trace left).map _) (.pure deps)

/-- The rule for definitions is uniform. -/
theorem traceDefinition (name : String) (node : Node) :
    Uniform program declared fun visitor => traceDefinition visitor name node := by
  unfold Flow.traceDefinition
  split
  · refine .bind (traceOptional _) fun deps => ?_
    cases node.child? "left" with
    | none => exact .pure deps
    | some left => exact .choice ((priorValue name left).map _) (.pure deps)
  · exact traceOptional _
  · exact traceOptional _
  · exact (giveUp _ node).map _

/-- The rule for expressions is uniform: the functions that it enters are those
that a call can denote. -/
theorem traceNode (node : Node)
    (declares : forall scope function declaration,
      program.registry.scopeOf program.globalScope node = .ok scope ->
      program.registry.resolveFunction scope function = .ok declaration -> declared declaration) :
    Uniform program declared fun visitor => traceNode visitor node := by
  unfold Flow.traceNode
  cases node.form with
  | literal => exact .pure ∅
  | variableName => exact traceVariable node
  | dynamicVariable => exact (giveUp _ node).map _
  | operands => exact traceAll _
  | unary => exact .choice (.pure ∅) (traceAll _)
  | array => exact traceAll _
  | container => exact traceOptional _
  | staticProperty => exact (giveUp _ node).map _
  | call => exact traceCall node declares
  | methodCall => exact (giveUp _ node).map _
  | conditional => exact traceConditional node
  | cast => exact traceCast node
  | interpolated => exact traceAll _
  | assignment => exact traceAssignment node
  | argument => exact traceOptional _
  | other => exact (giveUp _ node).map _

end Expressions

end Uniform

end PhpTaint.Flow
