import PhpTaint.Proofs.Flow.Beside

/-!
# Tracing without comments

A comment among the operands of an expression adds nothing to its value. So an
undisturbed expression and the same expression without its comments are traced
side by side, through calls and definitions: `traceWithin_beside` and
`definitionWithin_beside` say so for every bound on the nesting of flows. At
bound zero nothing is traced, and there a comment must not be the only operand.
-/

namespace PhpTaint.Flow

open Annotation Rules Scopes Syntax

variable {program bare : Program}

section Calls

/-- Two visitors for expressions side by side. -/
abbrev TracesBeside (program bare : Program) (trace bareTrace : Node -> Tracing Deps) : Prop :=
  forall node, node.Undisturbed ->
    Beside program bare SameDeps (trace node) (bareTrace node.stripped)

/-- Two tables of bound arguments. -/
abbrev SameArguments (first second : Table String Deps) : Prop := first.Resembles SameDeps second

/-- A function treats the same dependencies in the same way. -/
theorem applyFunction_same (rules : RuleSet) {first second : Deps} (deps : SameDeps first second)
    (function : String) :
    SameDeps (applyFunction rules first function) (applyFunction rules second function) := by
  unfold applyFunction
  dsimp only
  split
  · exact deps.mapValues fun _ _ related => related.withSanitizer _
  · cases rules.undoneBy? (normalizeName function) with
    | none => exact deps
    | some sanitizer => exact deps.mapValues fun _ _ related => related.withoutSanitizer _

/-- The same dependencies under the same name leave the same arguments. -/
theorem bindName_same {first second : Table String Deps} (arguments : SameArguments first second)
    (name : String) {deps other : Deps} (same : SameDeps deps other) :
    SameArguments (bindName first name deps) (bindName second name other) := by
  unfold bindName
  have found := arguments.find? name
  generalize first.find? name = left at found
  generalize second.find? name = right at found
  cases found with
  | none => exact arguments.insert name same
  | some earlier => exact arguments.insert name (Dependencies.mergeTwo_resembles earlier same)

variable {trace bareTrace : Node -> Tracing Deps} {summary other : Summary}

/-- Arguments bound so far on both sides. -/
structure Bound.Resembles (first second : Bound) : Prop where
  arguments : SameArguments first.arguments second.arguments
  position : second.position = first.position

/-- Summaries of a function with and without its comments have the same parameters. -/
theorem Summary.Resembles.parameters_eq (summaries : summary.Resembles other) :
    other.parameters = summary.parameters.map Node.stripped := by
  obtain ⟨undisturbed, same⟩ := summaries.declaration
  unfold Summary.parameters
  rw [same, undisturbed.parameters_stripped]

/-- Summaries of a function with and without its comments name the same parameters. -/
theorem Summary.Resembles.parameterNames_eq (summaries : summary.Resembles other) :
    other.parameterNames = summary.parameterNames := by
  obtain ⟨undisturbed, same⟩ := summaries.declaration
  unfold Summary.parameterNames
  rw [same, undisturbed.parameterNames_stripped]

/-- What holds of the comments in a declaration holds of those in its parameters. -/
theorem Summary.Resembles.undisturbed_of_mem (summaries : summary.Resembles other)
    {parameter : Node} (member : parameter ∈ summary.parameters) : parameter.Undisturbed :=
  summaries.declaration.1.of_inside (.of_mem_parameters member)

theorem Bound.Resembles.bind {first second : Bound} (bound : first.Resembles second)
    (summaries : summary.Resembles other) {argument value : Node}
    (undisturbed : argument.Undisturbed) {deps image : Deps} (same : SameDeps deps image) :
    (first.bind summary argument value deps).Resembles
      (second.bind other argument.stripped value.stripped image) := by
  have spread : forall names : List String, forall left right, SameArguments left right ->
      SameArguments (names.foldl (fun arguments name => bindName arguments name deps) left)
        (names.foldl (fun arguments name => bindName arguments name image) right) := by
    intro names
    induction names with
    | nil => exact fun _ _ start => start
    | cons name rest inductionHypothesis =>
        exact fun _ _ start => inductionHypothesis _ _ (bindName_same start name same)
  unfold Bound.bind
  dsimp only
  rw [undisturbed.argumentName_stripped, value.kind_stripped, summaries.parameterNames_eq,
    summaries.parameters_eq, bound.position, List.getElem?_map]
  split
  · exact ⟨bindName_same bound.arguments _ same, rfl⟩
  · split
    · exact ⟨spread _ _ _ bound.arguments, rfl⟩
    · cases found : summary.parameters[first.position]? with
      | none => exact bound
      | some parameter =>
          have inside := summaries.undisturbed_of_mem (List.mem_of_getElem? found)
          simp only [Option.map_some, inside.parameterName_stripped, parameter.kind_stripped]
          exact ⟨bindName_same bound.arguments _ same, rfl⟩

theorem bindArgument_beside (traces : TracesBeside program bare trace bareTrace)
    (summaries : summary.Resembles other) {argument : Node} (undisturbed : argument.Undisturbed)
    {first second : Bound} (bound : first.Resembles second) :
    Beside program bare Bound.Resembles (bindArgument trace summary first argument)
      (bindArgument bareTrace other second argument.stripped) := by
  unfold bindArgument
  rw [undisturbed.argumentValue_stripped]
  cases found : argument.argumentValue with
  | none => exact Beside.pure bound
  | some value =>
      exact (traces value (undisturbed.of_argumentValue found)).bind fun _ _ same =>
        Beside.pure (bound.bind summaries undisturbed same)

/-- A parameter takes its default value on both sides or on neither. -/
theorem bindDefault_beside (traces : TracesBeside program bare trace bareTrace) {parameter : Node}
    (undisturbed : parameter.Undisturbed) {first second : Table String Deps}
    (arguments : SameArguments first second) :
    Beside program bare SameArguments (bindDefault trace first parameter)
      (bindDefault bareTrace second parameter.stripped) := by
  unfold bindDefault
  rw [undisturbed.child?_stripped (by decide), undisturbed.parameterName_stripped]
  cases found : parameter.child? "default_value" with
  | none => exact Beside.pure arguments
  | some value =>
      dsimp only [Option.map_some]
      rw [arguments.contains]
      refine Beside.ite (fun _ => Beside.pure arguments) fun _ => ?_
      exact (traces value (undisturbed.of_child? found)).bind fun _ _ same =>
        Beside.pure (arguments.insert _ same)

/-- The same arguments are put in place of the same parameters. -/
theorem substitute_same (summaries : summary.Resembles other) {first second : Table String Deps}
    (arguments : SameArguments first second) :
    SameDeps (substitute summary first) (substitute other second) := by
  have leaf : forall name record image, SameLeaf record image ->
      List.Forall₂ SameDeps (substituteLeaf summary first name record)
        (substituteLeaf other second name image) := by
    intro name record image related
    unfold substituteLeaf
    rw [summaries.parameterNames_eq, related.level]
    have kept := Dependencies.single_resembles name related
    split
    · have bound : SameDeps ((first.find? name).getD ∅) ((second.find? name).getD ∅) := by
        have found := arguments.find? name
        generalize first.find? name = left at found
        generalize second.find? name = right at found
        cases found with
        | none => exact .empty
        | some same => exact same
      have passed := bound.mapValues fun _ _ (same : SameLeaf _ _) => same.passedThrough related
      dsimp only
      split
      · exact .cons passed .nil
      · exact .cons passed (.cons kept .nil)
    · exact .cons kept .nil
  unfold substitute
  refine Dependencies.merge_resembles (.of_forall₂ ?_)
  refine List.rel_flatMap summaries.returns.values_forall₂ fun deps image same => ?_
  refine List.rel_flatMap same fun entry another related => ?_
  rw [← related.1]
  exact leaf _ _ _ related.2

theorem bindArguments_beside (traces : TracesBeside program bare trace bareTrace)
    (summaries : summary.Resembles other) {arguments : List Node}
    (undisturbed : forall argument, argument ∈ arguments -> argument.Undisturbed) :
    Beside program bare SameArguments (bindArguments trace summary arguments)
      (bindArguments bareTrace other (arguments.map Node.stripped)) := by
  have bound : Beside program bare Bound.Resembles
      (arguments.foldlM (bindArgument trace summary) ⟨∅, 0⟩)
      ((arguments.map Node.stripped).foldlM (bindArgument bareTrace other) ⟨∅, 0⟩) := by
    refine Beside.foldlM_map (fun argument member _ _ bound => ?_) ⟨.empty, rfl⟩
    exact bindArgument_beside traces summaries (undisturbed argument member) bound
  unfold bindArguments
  refine bound.bind fun first second bound => ?_
  rw [summaries.parameters_eq]
  refine Beside.foldlM_map (fun parameter member _ _ bound => ?_) bound.arguments
  exact bindDefault_beside traces (summaries.undisturbed_of_mem member) bound

theorem callDependencies_beside (traces : TracesBeside program bare trace bareTrace)
    (summaries : summary.Resembles other) {arguments : List Node}
    (undisturbed : forall argument, argument ∈ arguments -> argument.Undisturbed) :
    Beside program bare SameDeps (callDependencies trace summary arguments)
      (callDependencies bareTrace other (arguments.map Node.stripped)) :=
  (bindArguments_beside traces summaries undisturbed).bind fun _ _ bound =>
    Beside.pure (substitute_same summaries bound)

/-- The same dependencies are added to the returned values of the same line. -/
theorem addReturn_same {first second : Table Nat Deps}
    (returns : first.Resembles SameDeps second) (line : Nat) {deps image : Deps}
    (same : SameDeps deps image) :
    (Summary.addReturn first line deps).Resembles SameDeps
      (Summary.addReturn second line image) := by
  unfold Summary.addReturn
  have found := returns.find? line
  generalize first.find? line = left at found
  generalize second.find? line = right at found
  cases found with
  | none => exact returns.insert line same
  | some earlier => exact returns.insert line (Dependencies.mergeTwo_resembles earlier same)

/-- Two tables of returned values. -/
abbrev SameReturns (first second : Table Nat Deps) : Prop := first.Resembles SameDeps second

theorem traceReturn_beside (traces : TracesBeside program bare trace bareTrace) {statement : Node}
    (undisturbed : statement.Undisturbed) {first second : Table Nat Deps}
    (returns : SameReturns first second) :
    Beside program bare SameReturns (traceReturn trace first statement)
      (traceReturn bareTrace second statement.stripped) := by
  have listed := @Node.find?_namedChildren_stripped statement (fun kind => kind ≠ "comment") rfl
  unfold traceReturn
  rw [listed, statement.line_stripped]
  cases found : statement.namedChildren.find? fun child => decide (child.kind ≠ "comment") with
  | none => exact Beside.pure (addReturn_same returns _ .empty)
  | some value =>
      have inside := undisturbed.of_mem_namedChildren (List.mem_of_find?_eq_some found)
      exact (traces value inside).bind fun _ _ same =>
        Beside.pure (addReturn_same returns _ same)

/-- The return statements of a body are traced side by side with the stripped ones. -/
theorem traceReturns_beside (traces : TracesBeside program bare trace bareTrace)
    {declaration body : Node} (undisturbed : declaration.Undisturbed)
    (found : declaration.child? "body" = some body) :
    Beside program bare SameReturns (traceReturns trace declaration body)
      (traceReturns bareTrace declaration.stripped body.stripped) := by
  have inside := undisturbed.of_child? found
  have code := undisturbed.not_isComment_of_child? (by decide) found
  unfold traceReturns
  rw [declaration.construct_stripped, body.line_stripped, inside.returns_stripped code]
  refine Beside.ite (fun _ => ?_) fun _ => ?_
  · exact (traces body inside).bind fun _ _ same => Beside.pure (addReturn_same .empty _ same)
  · refine Beside.foldlM_map (fun statement member _ _ returns => ?_) .empty
    have below := undisturbed.of_inside (.of_mem_returns member (.of_child? found))
    exact traceReturn_beside traces below returns

theorem buildSummary_beside (traces : TracesBeside program bare trace bareTrace)
    {declaration : Node} (undisturbed : declaration.Undisturbed) :
    Beside program bare Summary.Resembles (buildSummary trace declaration)
      (buildSummary bareTrace declaration.stripped) := by
  unfold buildSummary
  rw [undisturbed.child?_stripped (by decide), undisturbed.parameterNames_stripped,
    declaration.key_stripped]
  cases found : declaration.child? "body" with
  | none => exact Beside.pure ⟨⟨undisturbed, rfl⟩, .empty⟩
  | some body =>
      have returns := traceReturns_beside traces undisturbed found
      refine Beside.bind
        (Beside.whileInProgress _ (Beside.withTracer (.fresh _ _) returns))
        fun first second same => ?_
      exact Beside.bind_eq (Beside.remark _ _) fun _ =>
        Beside.pure ⟨⟨undisturbed, rfl⟩, same.1⟩

/-- A summary is taken from the memory on both sides, or built on both. -/
theorem summaryOf_beside (traces : TracesBeside program bare trace bareTrace)
    {declaration : Node} (undisturbed : declaration.Undisturbed) :
    Beside program bare Summary.Resembles (summaryOf trace declaration)
      (summaryOf bareTrace declaration.stripped) := by
  unfold summaryOf
  rw [declaration.key_stripped]
  refine Beside.get fun first second before => ?_
  have found := before.summaries.find? declaration.key
  generalize first.summaries.find? declaration.key = left at found
  generalize second.summaries.find? declaration.key = right at found
  cases found with
  | some same => exact Beside.pure same
  | none =>
      refine (buildSummary_beside traces undisturbed).bind fun _ _ same => ?_
      exact Beside.bind_eq
        (Beside.modify fun _ _ states =>
          ⟨states.tracer, states.summaries.insert _ same, states.inProgress⟩)
        fun _ => Beside.pure same

variable (programs : program.Resembles bare)

include programs

theorem followCall_beside (traces : TracesBeside program bare trace bareTrace) {node : Node}
    (undisturbed : node.Undisturbed) (code : node.isComment = false) (function : String) :
    Beside program bare (Option.Rel SameDeps) (followCall trace node function)
      (followCall bareTrace node.stripped function) := by
  unfold followCall
  refine Beside.bind_eq (scopeOfNode_beside programs code) fun scope => Beside.read ?_
  have found := programs.registry.resolveFunction scope function
  generalize program.registry.resolveFunction scope function = left at found
  generalize bare.registry.resolveFunction scope function = right at found
  cases found with
  | error fault =>
      exact Beside.ite (fun _ => Beside.pure .none) fun _ => Beside.throw fault
  | ok nodes =>
      rename_i declaration other
      obtain ⟨declared, rfl⟩ := nodes
      refine Beside.get fun first second before => ?_
      rw [before.inProgress, declaration.key_stripped, undisturbed.arguments_stripped]
      refine Beside.ite (fun _ => ?_) fun _ => ?_
      · exact Beside.bind_eq (Beside.remark _ _) fun _ =>
          Beside.pure (.some (unknownLeaf_same _ (.some (.referent ⟨undisturbed, rfl⟩))))
      · refine (summaryOf_beside traces declared).bind fun _ _ summaries => ?_
        refine (callDependencies_beside traces summaries fun argument member =>
          undisturbed.of_inside (.of_mem_arguments member)).bind fun _ _ same => ?_
        exact Beside.pure (.some same)

/-- An argument is traced through a function that the rules know in the same way. -/
theorem traceThrough_beside (traces : TracesBeside program bare trace bareTrace) (function : String)
    {argument : Node} (undisturbed : argument.Undisturbed) :
    Beside program bare SameDeps (traceThrough trace function argument)
      (traceThrough bareTrace function argument.stripped) := by
  unfold traceThrough
  refine (traces argument undisturbed).bind fun _ _ same => Beside.read ?_
  rw [programs.rules]
  exact Beside.pure (applyFunction_same program.rules same function)

theorem traceCall_beside (traces : TracesBeside program bare trace bareTrace) {node : Node}
    (undisturbed : node.Undisturbed) (code : node.isComment = false) :
    Beside program bare SameDeps (traceCall trace node) (traceCall bareTrace node.stripped) := by
  have dynamic : forall text : String, Beside program bare SameDeps
      (do
        giveUp "dynamic function name" node
        return unknownLeaf text none)
      (do
        giveUp "dynamic function name" node.stripped
        return unknownLeaf text none) := fun text =>
    Beside.bind_eq (Beside.giveUp _ _ _ _) fun _ => Beside.pure (unknownLeaf_same text .none)
  unfold traceCall
  rw [undisturbed.child?_stripped (by decide), node.text_stripped]
  cases node.child? "function" with
  | none => exact dynamic node.text
  | some callee =>
      dsimp only [Option.map_some]
      rw [callee.kind_stripped, callee.text_stripped]
      refine Beside.ite (fun _ => dynamic callee.text) fun _ => Beside.read ?_
      rw [programs.rules, undisturbed.arguments_stripped]
      refine Beside.ite (fun _ => Beside.pure (Dependencies.single_resembles _ ?_)) fun _ =>
        Beside.get fun first second before => ?_
      · exact .leaf _ .tainted (.some (.referent ⟨undisturbed, rfl⟩))
      · have unfollowed : Beside program bare SameDeps
            (Dependencies.merge <$> node.arguments.mapM
              (traceThrough trace (normalizeName callee.text)))
            (Dependencies.merge <$> (node.arguments.map Node.stripped).mapM
              (traceThrough bareTrace (normalizeName callee.text))) := by
          refine Beside.bind (Beside.mapM_map fun argument member => ?_) fun _ _ parts =>
            Beside.pure (Dependencies.merge_resembles (.of_forall₂ parts))
          exact traceThrough_beside programs traces _
            (undisturbed.of_inside (.of_mem_arguments member))
        rw [before.tracer.followsCalls]
        refine Beside.ite
          (fun _ => (followCall_beside programs traces undisturbed code callee.text).bind ?_)
          fun _ =>
            Beside.bind (Beside.pure (Option.Rel.none : Option.Rel SameDeps none none)) ?_
        all_goals
          intro followed other related
          cases related with
          | some same => exact Beside.pure same
          | none => exact unfollowed

end Calls

section Expressions

/-- A visitor for expressions finds nothing in a comment, or neither of two
visitors goes into anything at all. -/
inductive PassesOver (program bare : Program) (trace bareTrace : Node -> Tracing Deps) : Prop where
  | silent (comments : forall node, node.isComment = true ->
      Beside program bare (fun deps (_ : PUnit) => deps = ∅) (trace node) (pure ⟨⟩))
  | exhausted (first : forall node, trace node = throw .tooDeep)
      (second : forall node, bareTrace node = throw .tooDeep)

/-- Two visitors side by side. -/
structure Visitor.Beside (program bare : Program) (visitor bareVisitor : Visitor) : Prop where
  traces : TracesBeside program bare visitor.trace bareVisitor.trace
  definitions : DefinitionsBeside program bare visitor.definition bareVisitor.definition
  comments : PassesOver program bare visitor.trace bareVisitor.trace

variable {visitor bareVisitor : Visitor} {node : Node}

/-- A part that may be missing is missing on both sides or traced on both. -/
theorem traceOptional_beside {trace bareTrace : Node -> Tracing Deps}
    (traces : TracesBeside program bare trace bareTrace) {part : Option Node}
    (undisturbed : forall inner, part = some inner -> inner.Undisturbed) :
    Beside program bare SameDeps (traceOptional trace part)
      (traceOptional bareTrace (part.map Node.stripped)) := by
  cases part with
  | none => exact Beside.pure .empty
  | some inner => exact traces inner (undisturbed inner rfl)

/-- A labelled part is traced beside the part without comments. -/
theorem traceLabelled_beside {trace bareTrace : Node -> Tracing Deps}
    (traces : TracesBeside program bare trace bareTrace) (undisturbed : node.Undisturbed)
    {label : String} (labelled : label ≠ "") :
    Beside program bare SameDeps (traceOptional trace (node.child? label))
      (traceOptional bareTrace (node.stripped.child? label)) := by
  rw [undisturbed.child?_stripped labelled]
  exact traceOptional_beside traces fun _ found => undisturbed.of_child? found

theorem traceAll_map_beside {trace bareTrace : Node -> Tracing Deps}
    (traces : TracesBeside program bare trace bareTrace) {parts : List Node}
    (undisturbed : forall part, part ∈ parts -> part.Undisturbed) :
    Beside program bare SameDeps (traceAll trace parts)
      (traceAll bareTrace (parts.map Node.stripped)) :=
  Beside.bind (Beside.mapM_map fun part member => traces part (undisturbed part member))
    fun _ _ parts => Beside.pure (Dependencies.merge_resembles (.of_forall₂ parts))

/-- A list of parts is not traced where not even one part is. -/
theorem traceAll_of_exhausted {trace : Node -> Tracing Deps}
    (exhausted : forall node, trace node = throw .tooDeep) {parts : List Node}
    (nonempty : parts ≠ []) : traceAll trace parts = throw .tooDeep := by
  obtain ⟨first, rest, rfl⟩ := List.exists_cons_of_ne_nil nonempty
  unfold traceAll
  rw [List.mapM_cons, exhausted]
  rfl

/-- Parts are traced beside those of them that are no comments. -/
theorem mapM_beside_of_silent {trace bareTrace : Node -> Tracing Deps}
    (traces : TracesBeside program bare trace bareTrace)
    (comments : forall node, node.isComment = true ->
      Beside program bare (fun deps (_ : PUnit) => deps = ∅) (trace node) (pure ⟨⟩))
    {parts : List Node} (undisturbed : forall part, part ∈ parts -> part.Undisturbed) :
    Beside program bare (Dependencies.PartsResemble (Binding.Resembles Node.StripsTo))
      (parts.mapM trace)
      (((parts.filter fun part => !part.isComment).map Node.stripped).mapM bareTrace) := by
  induction parts with
  | nil => exact Beside.pure .nil
  | cons part rest inductionHypothesis =>
      have later := inductionHypothesis fun other member =>
        undisturbed other (List.mem_cons_of_mem _ member)
      cases comment : part.isComment with
      | true =>
          rw [List.filter_cons_of_neg (by simp [comment]), List.mapM_cons]
          refine Tandem.bind_silent (comments part comment) fun deps empty => ?_
          rw [empty]
          exact later.map_left fun _ _ parts => .spare parts
      | false =>
          rw [List.filter_cons_of_pos (by simp [comment]), List.map_cons, List.mapM_cons,
            List.mapM_cons]
          refine (traces part (undisturbed part (List.mem_cons_self ..))).bind fun _ _ same => ?_
          exact later.bind fun _ _ parts => Beside.pure (.both same parts)

/-- The operands of an operation are traced beside those that are no comments. -/
theorem traceOperands_beside (visitors : visitor.Beside program bare bareVisitor)
    (undisturbed : node.Undisturbed) (reads : Tree.readsAll node.kind = true) :
    Beside program bare SameDeps (traceAll visitor.trace node.namedChildren)
      (traceAll bareVisitor.trace node.stripped.namedChildren) := by
  have inside : forall part, part ∈ node.namedChildren -> part.Undisturbed :=
    fun part member => undisturbed.of_mem_namedChildren member
  have kept : node.namedChildren ≠ [] ->
      (node.namedChildren.filter fun part => !part.isComment).map Node.stripped ≠ [] := by
    intro nonempty
    have operands := undisturbed.here.operands reads
    obtain ⟨tree, member, code⟩ : ∃ tree ∈ node.tree.namedChildren, tree.isComment = false :=
      operands.resolve_left fun empty => nonempty (by
        unfold Node.namedChildren
        rw [List.isEmpty_iff.1 empty]
        rfl)
    have listed : node.withTree tree ∈ node.namedChildren := List.mem_map_of_mem member
    have stays : (!(node.withTree tree).isComment) = true := by
      show (!tree.isComment) = true
      rw [code]
      rfl
    exact List.ne_nil_of_mem (List.mem_map_of_mem (List.mem_filter.2 ⟨listed, stays⟩))
  rw [node.namedChildren_stripped]
  cases visitors.comments with
  | exhausted first second =>
      by_cases empty : node.namedChildren = []
      · rw [empty]
        exact Beside.pure .empty
      · rw [traceAll_of_exhausted first empty, traceAll_of_exhausted second (kept empty)]
        exact Beside.throw _
  | silent comments =>
      exact (mapM_beside_of_silent visitors.traces comments inside).bind fun _ _ parts =>
        Beside.pure (Dependencies.merge_resembles parts)

/-- The elements of an array are the same without comments. -/
theorem filterMap_elementValue?_stripped (undisturbed : node.Undisturbed) :
    node.stripped.namedChildren.filterMap elementValue? =
      (node.namedChildren.filterMap elementValue?).map Node.stripped := by
  have inside : forall part, part ∈ node.namedChildren -> part.Undisturbed :=
    fun part member => undisturbed.of_mem_namedChildren member
  have value : forall part, part.Undisturbed ->
      elementValue? part.stripped = (elementValue? part).map Node.stripped := by
    intro part undisturbed
    unfold elementValue?
    rw [part.kind_stripped]
    split
    · rename_i element
      exact undisturbed.getLast?_stripped (by simp [Tree.tellsLast, element])
    · rfl
  rw [node.namedChildren_stripped]
  generalize node.namedChildren = parts at inside
  induction parts with
  | nil => rfl
  | cons part rest inductionHypothesis =>
      have later := inductionHypothesis fun other member =>
        inside other (List.mem_cons_of_mem _ member)
      have here := value part (inside part (List.mem_cons_self ..))
      cases comment : part.isComment with
      | true =>
          have none : elementValue? part = none := by
            unfold elementValue?
            rw [Node.kind_of_isComment comment]
            rfl
          simp [comment, later, none]
      | false =>
          rw [List.filter_cons_of_pos (by simp [comment]), List.map_cons, List.filterMap_cons,
            List.filterMap_cons, here, later]
          cases elementValue? part <;> rfl

/-- A conditional expression finds its branches by their labels and traces both. -/
theorem traceConditional_beside {trace bareTrace : Node -> Tracing Deps}
    (traces : TracesBeside program bare trace bareTrace) (undisturbed : node.Undisturbed) :
    Beside program bare SameDeps (traceConditional trace node)
      (traceConditional bareTrace node.stripped) := by
  have alternative := traceLabelled_beside traces undisturbed (show "alternative" ≠ "" by decide)
  have ending : forall chosen bareChosen,
      Beside program bare SameDeps (traceOptional trace chosen) (traceOptional bareTrace bareChosen) ->
      Beside program bare SameDeps
        (do
          let first ← traceOptional trace chosen
          let second ← traceOptional trace (node.child? "alternative")
          return Dependencies.mergeTwo first second)
        (do
          let first ← traceOptional bareTrace bareChosen
          let second ← traceOptional bareTrace (node.stripped.child? "alternative")
          return Dependencies.mergeTwo first second) := fun _ _ chosen =>
    chosen.bind fun _ _ first => alternative.bind fun _ _ second =>
      Beside.pure (Dependencies.mergeTwo_resembles first second)
  unfold traceConditional
  have body := undisturbed.child?_stripped (show "body" ≠ "" by decide)
  cases found : node.child? "body" with
  | none =>
      rw [found] at body
      simp only [body, Option.map_none]
      exact ending _ _ (traceLabelled_beside traces undisturbed (by decide))
  | some inner =>
      rw [found] at body
      simp only [body, Option.map_some]
      exact ending (some inner) (some inner.stripped) (traces inner (undisturbed.of_child? found))

/-- A cast that keeps texts traces the same value. -/
theorem traceCast_beside {trace bareTrace : Node -> Tracing Deps}
    (traces : TracesBeside program bare trace bareTrace) (undisturbed : node.Undisturbed) :
    Beside program bare SameDeps (traceCast trace node) (traceCast bareTrace node.stripped) := by
  unfold traceCast
  have value := traceLabelled_beside traces undisturbed (show "value" ≠ "" by decide)
  rw [undisturbed.child?_stripped (show "type" ≠ "" by decide)]
  cases node.child? "type" with
  | none => exact Beside.pure .empty
  | some conversion =>
      have keeps : keepsText conversion.stripped = keepsText conversion := by
        simp [keepsText]
      dsimp only [Option.map_some]
      rw [keeps]
      exact Beside.ite (fun _ => value) fun _ => Beside.pure .empty

/-- An assignment as an expression traces the same sides. -/
theorem traceAssignment_beside {trace bareTrace : Node -> Tracing Deps}
    (traces : TracesBeside program bare trace bareTrace) (undisturbed : node.Undisturbed) :
    Beside program bare SameDeps (traceAssignment trace node)
      (traceAssignment bareTrace node.stripped) := by
  unfold traceAssignment
  refine (traceLabelled_beside traces undisturbed (by decide)).bind fun _ _ same => ?_
  rw [undisturbed.child?_stripped (by decide), node.kind_stripped]
  cases found : node.child? "left" with
  | none => exact Beside.pure same
  | some left =>
      refine Beside.ite (fun _ => ?_) fun _ => Beside.pure same
      exact (traces left (undisturbed.of_child? found)).bind fun _ _ former =>
        Beside.pure (Dependencies.mergeTwo_resembles former same)

variable (programs : program.Resembles bare) (visitors : visitor.Beside program bare bareVisitor)

include programs visitors

/-- A definition is read as the same construct with and without its comments. -/
theorem traceDefinition_beside (name : String) (undisturbed : node.Undisturbed) :
    Beside program bare SameDeps (traceDefinition visitor name node)
      (traceDefinition bareVisitor name node.stripped) := by
  unfold traceDefinition
  rw [node.construct_stripped]
  cases construct : node.construct with
  | assignment =>
      refine (traceLabelled_beside visitors.traces undisturbed (by decide)).bind
        fun _ _ same => ?_
      rw [undisturbed.child?_stripped (by decide)]
      cases found : node.child? "left" with
      | none => exact Beside.pure same
      | some left =>
          have keeps : keepsFormerValue node.stripped left.stripped =
              keepsFormerValue node left := by
            simp [keepsFormerValue]
          dsimp only [Option.map_some]
          rw [keeps]
          refine Beside.ite (fun _ => ?_) fun _ => Beside.pure same
          exact (priorValue_beside programs visitors.definitions name
            (undisturbed.of_child? found)).bind fun _ _ former =>
              Beside.pure (Dependencies.mergeTwo_resembles former same)
  | iteration =>
      rw [undisturbed.head?_stripped (by rw [kind_of_iteration construct]; decide)]
      exact traceOptional_beside visitors.traces fun _ found =>
        undisturbed.of_mem_namedChildren (List.mem_of_mem_head? found)
  | staticVariable => exact traceLabelled_beside visitors.traces undisturbed (by decide)
  | _ =>
      exact Beside.bind_eq (Beside.giveUp _ _ _ _) fun _ =>
        Beside.pure (unknownLeaf_same name (.some (.referent ⟨undisturbed, rfl⟩)))

omit programs visitors in
/-- An expression of any form but the last is no comment. -/
theorem isComment_of_form (form : node.form ≠ .other) : node.isComment = false := by
  cases comment : node.isComment with
  | false => rfl
  | true =>
      refine absurd ?_ form
      unfold Node.form
      rw [Node.kind_of_isComment comment]
      rfl

/-- Every expression is traced side by side with its stripped form. -/
theorem traceNode_beside (undisturbed : node.Undisturbed) :
    Beside program bare SameDeps (traceNode visitor node) (traceNode bareVisitor node.stripped) := by
  have inside : forall part, part ∈ node.namedChildren -> part.Undisturbed :=
    fun part member => undisturbed.of_mem_namedChildren member
  have code : node.form ≠ .other -> node.isComment = false := isComment_of_form
  unfold traceNode
  rw [node.form_stripped, node.text_stripped]
  cases form : node.form with
  | literal => exact Beside.pure .empty
  | variableName =>
      exact traceVariable_beside programs visitors.definitions (code (by rw [form]; decide))
  | dynamicVariable =>
      exact Beside.bind_eq (Beside.giveUp _ _ _ _) fun _ =>
        Beside.pure (unknownLeaf_same node.text .none)
  | operands =>
      exact traceOperands_beside visitors undisturbed
        (by simp [Tree.readsAll, show Form.ofKind node.kind = .operands from form])
  | unary =>
      rw [node.hasToken_stripped (by decide)]
      refine Beside.ite (fun _ => Beside.pure .empty) fun _ => ?_
      exact traceOperands_beside visitors undisturbed
        (by simp [Tree.readsAll, show Form.ofKind node.kind = .unary from form])
  | array =>
      rw [filterMap_elementValue?_stripped undisturbed]
      refine traceAll_map_beside visitors.traces fun part member => ?_
      obtain ⟨element, elementMember, found⟩ := List.mem_filterMap.1 member
      unfold elementValue? at found
      split at found
      · exact (inside element elementMember).of_mem_namedChildren (List.mem_of_getLast? found)
      · cases found
  | container =>
      rw [undisturbed.containerPart?_stripped
        (by simp [isContainerKind, show Form.ofKind node.kind = .container from form])]
      refine traceOptional_beside visitors.traces fun part found => ?_
      exact undisturbed.of_inside (.of_mem_children (Node.mem_children_of_containerPart? found))
  | staticProperty =>
      exact Beside.bind_eq (Beside.giveUp _ _ _ _) fun _ => Beside.pure .empty
  | call =>
      exact traceCall_beside programs visitors.traces undisturbed (code (by rw [form]; decide))
  | methodCall => exact Beside.bind_eq (Beside.giveUp _ _ _ _) fun _ => Beside.pure .empty
  | conditional => exact traceConditional_beside visitors.traces undisturbed
  | cast => exact traceCast_beside visitors.traces undisturbed
  | interpolated =>
      have kept := @Node.filter_namedChildren_stripped node (fun kind => !isTextPartKind kind)
        (by decide)
      rw [kept]
      exact traceAll_map_beside visitors.traces fun part member =>
        inside part (List.mem_filter.1 member).1
  | assignment => exact traceAssignment_beside visitors.traces undisturbed
  | argument =>
      rw [undisturbed.argumentValue_stripped]
      exact traceOptional_beside visitors.traces fun _ found => undisturbed.of_argumentValue found
  | other => exact Beside.bind_eq (Beside.giveUp _ _ _ _) fun _ => Beside.pure .empty

omit programs visitors in
/-- Nothing flows out of a comment. -/
theorem traceNode_of_isComment (comment : node.isComment = true) :
    Beside program bare (fun deps (_ : PUnit) => deps = ∅) (traceNode visitor node) (pure ⟨⟩) := by
  have form : node.form = .other := by
    unfold Node.form
    rw [Node.kind_of_isComment comment]
    rfl
  have silent : Beside program bare Eq (giveUp node.kind node) (pure ⟨⟩) :=
    Tandem.change_left fun _ _ before =>
      ⟨⟨before.tracer.parameters, before.tracer.followsCalls, before.tracer.records,
        before.tracer.active, before.tracer.traced⟩, before.summaries, before.inProgress⟩
  have passed : Beside program bare (fun deps (_ : PUnit) => deps = ∅)
      (do giveUp node.kind node; return (∅ : Deps)) (pure ⟨⟩) := by
    show Tandem Memory.Resembles (fun deps (_ : PUnit) => deps = ∅)
      (giveUp node.kind node program >>= fun _ => pure ∅) (pure ⟨⟩)
    exact Tandem.bind_silent silent fun _ _ _ _ before => .ok rfl before
  unfold traceNode
  rw [form]
  exact passed

end Expressions

/-- Within every bound on the nesting of flows, tracing goes side by side with
tracing without comments. -/
theorem visitor_beside (programs : program.Resembles bare) (depth : Nat) :
    (visitor depth).Beside program bare (visitor depth) := by
  induction depth with
  | zero =>
      exact ⟨fun _ _ => Beside.throw _, fun _ _ _ => Beside.throw _,
        .exhausted (fun _ => rfl) fun _ => rfl⟩
  | succ depth inductionHypothesis =>
      refine ⟨fun node undisturbed => ?_, fun name node undisturbed => ?_, .silent ?_⟩
      · exact traceNode_beside programs inductionHypothesis undisturbed
      · exact traceDefinition_beside programs inductionHypothesis name undisturbed
      · exact fun node comment => traceNode_of_isComment comment

/-- An undisturbed expression depends on the same leaves as the expression
without its comments. -/
theorem traceInPlace_beside (programs : program.Resembles bare) {node : Node}
    (undisturbed : node.Undisturbed) :
    Beside program bare SameDeps (traceInPlace node) (traceInPlace node.stripped) := by
  have traced : Beside program bare SameDeps (trace node) (trace node.stripped) := by
    unfold trace withVisitor
    refine Beside.read ?_
    rw [programs.depth]
    exact (visitor_beside programs program.depth).traces node undisturbed
  unfold traceInPlace
  exact (Beside.withTracer (.fresh [] true) traced).bind fun _ _ same => Beside.pure same.1

end PhpTaint.Flow
