import PhpTaint.Proofs.Flow.Parts
import PhpTaint.Proofs.Flow.Tables

/-!
# Flow from an expression to the next one

`FlowStep` relates an expression to the expressions that are traced for it on its
own account, that is without passing through the definition of a variable or the
body of a function: its parts, the arguments of a call of a declared function,
and the default values of the parameters that such a call leaves without an
argument. Which parameters those are can be read off the shape of the call.
`Concludes.callDependencies_of` is the rule for such a call: it traces just these.
-/

namespace PhpTaint.Flow

open Scopes Syntax Rules

/-- The declaration that a call by name denotes where it stands. -/
def calledFunction? (program : Program) (node : Node) : Option Node :=
  if node.form = .call then
    match calleeOf program.rules node with
    | .named callee =>
        match program.registry.scopeOf program.globalScope node with
        | .ok scope => (program.registry.resolveFunction scope callee.text).toOption
        | .error _ => none
    | _ => none
  else none

/-- A call with a known callee is one by name, and its scope resolves that name. -/
theorem of_calledFunction?_eq_some {program : Program} {node target : Node}
    (called : calledFunction? program node = some target) :
    node.form = .call ∧ ∃ callee scope, calleeOf program.rules node = .named callee ∧
      program.registry.scopeOf program.globalScope node = .ok scope ∧
      program.registry.resolveFunction scope callee.text = .ok target := by
  unfold calledFunction? at called
  split at called
  · rename_i isCall
    refine ⟨isCall, ?_⟩
    cases callee : calleeOf program.rules node with
    | named name =>
        rw [callee] at called
        simp only at called
        cases located : program.registry.scopeOf program.globalScope node with
        | error fault =>
            rw [located] at called
            cases called
        | ok scope =>
            rw [located] at called
            simp only at called
            refine ⟨name, scope, rfl, rfl, ?_⟩
            cases resolved : program.registry.resolveFunction scope name.text with
            | error fault =>
                rw [resolved] at called
                cases called
            | ok declaration =>
                rw [resolved] at called
                cases called
                rfl
    | dynamic text | input name =>
        rw [callee] at called
        cases called
  · cases called

/-- The parameter names that arguments have been bound to, and the next
positional parameter. -/
structure Filled where
  /-- The names, newest first. -/
  names : List String
  /-- The position of the next positional argument. -/
  position : Nat

/-- The names after one more argument. -/
def Filled.add (declaration : Node) (filled : Filled) (argument : Node) : Filled :=
  match argument.argumentValue with
  | none => filled
  | some value =>
      if argument.argumentName != "" then
        { filled with names := argument.argumentName :: filled.names }
      else if value.kind = "variadic_unpacking" then
        { filled with
          names := (declaration.parameterNames.drop filled.position).reverse ++ filled.names }
      else
        match declaration.parameters[filled.position]? with
        | some parameter =>
            { names := parameter.parameterName :: filled.names
              position :=
                if parameter.kind = "variadic_parameter" then filled.position
                else filled.position + 1 }
        | none => filled

/-- The default values of the parameters whose names are not filled. A default
value fills the name of its parameter. -/
def defaultsBeside (names : List String) : List Node -> List Node
  | [] => []
  | parameter :: rest =>
      match parameter.child? "default_value" with
      | some value =>
          if names.contains parameter.parameterName then defaultsBeside names rest
          else value :: defaultsBeside (parameter.parameterName :: names) rest
      | none => defaultsBeside names rest

/-- The default values that are left to parameters whose names are not filled, with
these names. -/
def fallbacks (names : List String) : List Node -> List (Option String × Node)
  | [] => []
  | parameter :: rest =>
      match parameter.child? "default_value" with
      | some value =>
          if names.contains parameter.parameterName then fallbacks names rest
          else (some parameter.parameterName, value) ::
            fallbacks (parameter.parameterName :: names) rest
      | none => fallbacks names rest

/-- The default values that a call with the given arguments has to fall back
on. -/
def unfilledDefaults (declaration : Node) (arguments : List Node) : List Node :=
  defaultsBeside (arguments.foldl (Filled.add declaration) ⟨[], 0⟩).names declaration.parameters

/-- An expression that is traced for another one on its own account. Summaries are
kept by key, so a call may be answered by any of the nodes with the key of the
declaration that it denotes. -/
inductive FlowStep (program : Program) (nodes : List Node) (node : Node) : Node -> Prop where
  /-- A part of an expression that is no call of a declared function. -/
  | part {part : Node} (undeclared : calledFunction? program node = none)
      (member : part ∈ valueParts program.rules node) : FlowStep program nodes node part
  /-- The value of an argument. -/
  | argument {target argument value : Node} (called : calledFunction? program node = some target)
      (member : argument ∈ node.arguments) (passed : argument.argumentValue = some value) :
      FlowStep program nodes node value
  /-- The default value of a parameter without an argument. -/
  | fallback {target declaration value : Node}
      (called : calledFunction? program node = some target) (declared : declaration ∈ nodes)
      (same : declaration.key = target.key)
      (unfilled : value ∈ unfilledDefaults declaration node.arguments) :
      FlowStep program nodes node value

/-- A default value is labelled as one and stands inside its declaration. -/
theorem of_mem_defaultsBeside {names : List String} {parameters : List Node} {value : Node}
    (member : value ∈ defaultsBeside names parameters) :
    ∃ parameter, parameter ∈ parameters ∧ parameter.child? "default_value" = some value := by
  induction parameters generalizing names with
  | nil => cases member
  | cons parameter rest inductionHypothesis =>
      rw [defaultsBeside] at member
      cases found : parameter.child? "default_value" with
      | none =>
          rw [found] at member
          obtain ⟨other, inside, labelled⟩ := inductionHypothesis member
          exact ⟨other, List.mem_cons_of_mem _ inside, labelled⟩
      | some first =>
          rw [found] at member
          simp only at member
          split at member
          · obtain ⟨other, inside, labelled⟩ := inductionHypothesis member
            exact ⟨other, List.mem_cons_of_mem _ inside, labelled⟩
          · rcases List.mem_cons.1 member with rfl | later
            · exact ⟨parameter, List.mem_cons_self .., found⟩
            · obtain ⟨other, inside, labelled⟩ := inductionHypothesis later
              exact ⟨other, List.mem_cons_of_mem _ inside, labelled⟩

/-- A default value lies inside its declaration. -/
theorem inside_of_mem_unfilledDefaults {declaration value : Node} {arguments : List Node}
    (member : value ∈ unfilledDefaults declaration arguments) : value.Inside declaration := by
  obtain ⟨parameter, inside, labelled⟩ := of_mem_defaultsBeside member
  exact (Node.Inside.of_child? labelled).trans (.of_mem_parameters inside)

/-- A default value is told by its label. -/
theorem label_of_mem_unfilledDefaults {declaration value : Node} {arguments : List Node}
    (member : value ∈ unfilledDefaults declaration arguments) :
    value.tree.label = "default_value" := by
  obtain ⟨parameter, _, labelled⟩ := of_mem_defaultsBeside member
  obtain ⟨tree, found, rfl⟩ := Option.map_eq_some_iff.1 labelled
  exact eq_of_beq (List.find?_some (p := fun child : Tree => child.label == "default_value") found)

/-- The names that are bound and the names that are filled are the same. -/
structure Bound.Agrees (bound : Bound) (filled : Filled) : Prop where
  names : forall name, bound.arguments.contains name = true ↔ name ∈ filled.names
  position : bound.position = filled.position

/-- Binding a name fills that name and no other. -/
theorem contains_bindName {arguments : Table String Deps} {name other : String} {deps : Deps} :
    (bindName arguments name deps).contains other = true ↔
      other = name ∨ arguments.contains other = true := by
  unfold bindName Table.contains
  split
  all_goals
    rw [Table.find?_insert]
    by_cases same : other = name
    · simp [same]
    · simp [same]

/-- Binding names fills those names and no others. -/
theorem contains_bindNames {names : List String} {arguments : Table String Deps} {other : String}
    {deps : Deps} :
    (names.foldl (fun current name => bindName current name deps) arguments).contains other = true ↔
      other ∈ names ∨ arguments.contains other = true := by
  induction names generalizing arguments with
  | nil => simp
  | cons name rest inductionHypothesis =>
      rw [List.foldl_cons, inductionHypothesis, contains_bindName, List.mem_cons]
      constructor
      · rintro (later | same | earlier)
        · exact Or.inl (Or.inr later)
        · exact Or.inl (Or.inl same)
        · exact Or.inr earlier
      · rintro ((same | later) | earlier)
        · exact Or.inr (Or.inl same)
        · exact Or.inl later
        · exact Or.inr (Or.inr earlier)

/-- One more filled name is in front of the names that were filled. -/
theorem contains_insert_iff {arguments : Table String Deps} {names : List String}
    (agrees : forall name, arguments.contains name = true ↔ name ∈ names) {filled : String}
    {deps : Deps} (name : String) :
    (arguments.insert filled deps).contains name = true ↔ name ∈ filled :: names := by
  unfold Table.contains
  rw [Table.find?_insert, List.mem_cons]
  by_cases same : name = filled
  · simp [same]
  · simpa [same, Table.contains] using agrees name

/-- Bind what goes to a parameter. -/
def bindHanded (arguments : Table String Deps) (handed : Option String × Deps) :
    Table String Deps :=
  match handed.1 with
  | some name => bindName arguments name handed.2
  | none => arguments

/-- What merging keeps is kept when an argument is bound. -/
theorem Each.bindHanded {holds : Deps -> Prop} {arguments : Table String Deps} {deps : Deps}
    (merges : forall left right, holds left -> holds right ->
      holds (Dependencies.mergeTwo left right))
    (passed : Each holds arguments) (receiver : Option String) (added : holds deps) :
    Each holds (bindHanded arguments (receiver, deps)) := by
  cases receiver with
  | none => exact passed
  | some parameter => exact passed.bindName merges parameter added

/-- Trace a default value and bind it. -/
def bindFallback (trace : Node -> Tracing Deps) (arguments : Table String Deps)
    (item : Option String × Node) : Tracing (Table String Deps) := do
  let deps ← trace item.2
  return bindHanded arguments (item.1, deps)

/-- The default values that are traced are those of the parameters that are not
filled. -/
theorem map_snd_fallbacks (names : List String) (parameters : List Node) :
    (fallbacks names parameters).map Prod.snd = defaultsBeside names parameters := by
  induction parameters generalizing names with
  | nil => rfl
  | cons parameter rest inductionHypothesis =>
      rw [fallbacks, defaultsBeside]
      cases parameter.child? "default_value" with
      | none => exact inductionHypothesis names
      | some value =>
          simp only
          split
          · exact inductionHypothesis names
          · rw [List.map_cons, inductionHypothesis]

/-- A default value that is used belongs to a parameter that nothing fills. -/
theorem mem_defaultsBeside_of_mem_fallbacks {names : List String} {parameters : List Node}
    {item : Option String × Node} (listed : item ∈ fallbacks names parameters) :
    item.2 ∈ defaultsBeside names parameters := by
  rw [← map_snd_fallbacks]
  exact List.mem_map_of_mem listed

/-- Falling back on default values is tracing them one after the other, each for the
parameter that it belongs to. -/
theorem foldlM_bindDefault {trace : Node -> Tracing Deps} {parameters : List Node}
    {arguments : Table String Deps} {names : List String}
    (agrees : forall name, arguments.contains name = true ↔ name ∈ names) :
    parameters.foldlM (bindDefault trace) arguments =
      (fallbacks names parameters).foldlM (bindFallback trace) arguments := by
  induction parameters generalizing arguments names with
  | nil => rfl
  | cons parameter rest inductionHypothesis =>
      rw [List.foldlM_cons, fallbacks]
      unfold bindDefault
      cases parameter.child? "default_value" with
      | none =>
          simp only
          rw [pure_bind]
          exact inductionHypothesis agrees
      | some value =>
          simp only
          by_cases filled : arguments.contains parameter.parameterName = true
          · rw [if_pos filled, pure_bind, if_pos (List.contains_iff_mem.2 ((agrees _).1 filled))]
            exact inductionHypothesis agrees
          · have unfilled : ¬ names.contains parameter.parameterName = true := fun listed =>
              filled ((agrees _).2 (List.contains_iff_mem.1 listed))
            rw [if_neg filled, if_neg unfilled, List.foldlM_cons, bindFallback, bind_assoc,
              bind_assoc]
            congr
            funext deps
            have missing : arguments.find? parameter.parameterName = none :=
              Option.not_isSome_iff_eq_none.1 filled
            have bound : bindHanded arguments (some parameter.parameterName, deps) =
                arguments.insert parameter.parameterName deps := by
              simp [bindHanded, bindName, missing]
            rw [pure_bind, pure_bind, bound]
            exact inductionHypothesis (contains_insert_iff agrees)

/-- Binding an argument fills the names that its shape says. -/
theorem Bound.Agrees.bind {summary : Summary} {bound : Bound} {filled : Filled}
    (agrees : bound.Agrees filled) {argument value : Node}
    (passed : argument.argumentValue = some value) (deps : Deps) :
    (bound.bind summary argument value deps).Agrees (filled.add summary.declaration argument) := by
  unfold Bound.bind Filled.add
  rw [passed]
  simp only
  split
  · refine ⟨fun name => ?_, agrees.position⟩
    rw [contains_bindName, agrees.names, List.mem_cons]
  · split
    · refine ⟨fun name => ?_, agrees.position⟩
      rw [contains_bindNames, agrees.names, agrees.position, List.mem_append, List.mem_reverse]
      rfl
    · rw [agrees.position, Summary.parameters]
      cases summary.declaration.parameters[filled.position]? with
      | none => exact agrees
      | some parameter =>
          refine ⟨fun name => ?_, rfl⟩
          rw [contains_bindName, agrees.names, List.mem_cons]

namespace Concludes

variable {program : Program} {memory : Memory} {trace : Node -> Tracing Deps} {summary : Summary}
  {arguments : List Node} {bad : Fault -> Memory -> Prop}

/-- The names that arguments are bound to are those that the shape of the call says. -/
theorem foldlM_bindArgument_of (kept : Table String Deps -> Memory -> Prop) (start : kept ∅ memory)
    (given : forall argument value (bound : Bound) after, argument ∈ arguments ->
      argument.argumentValue = some value -> kept bound.arguments after ->
        Concludes program after (trace value)
          (fun deps final => kept (bound.bind summary argument value deps).arguments final) bad) :
    Concludes program memory (arguments.foldlM (bindArgument trace summary) ⟨∅, 0⟩)
      (fun bound after =>
        bound.Agrees (arguments.foldl (Filled.add summary.declaration) ⟨[], 0⟩) ∧
          kept bound.arguments after) bad := by
  refine Concludes.foldlM (fun done (bound : Bound) after =>
    bound.Agrees (done.foldl (Filled.add summary.declaration) ⟨[], 0⟩) ∧ kept bound.arguments after)
    ⟨⟨fun name => by simp [Table.contains], rfl⟩, start⟩ ?_
  rintro done argument rest split bound after ⟨agrees, holds⟩
  have member : argument ∈ arguments := by simp [split]
  rw [List.foldl_append, List.foldl_cons, List.foldl_nil]
  unfold bindArgument
  cases passed : argument.argumentValue with
  | none =>
      refine ⟨?_, holds⟩
      unfold Filled.add
      rw [passed]
      exact agrees
  | some value =>
      simp only [bind_iff, pure_iff]
      refine mono (given argument value bound after member passed holds) ?_ fun _ _ failed => failed
      exact fun deps final holds => ⟨agrees.bind passed deps, holds⟩

/-- A call traces its arguments, then the default values that it falls back on, and
substitutes what they depend on. -/
theorem callDependencies_of {good : Deps -> Memory -> Prop}
    (kept : Table String Deps -> Memory -> Prop) (start : kept ∅ memory)
    (given : forall argument value (bound : Bound) after, argument ∈ arguments ->
      argument.argumentValue = some value -> kept bound.arguments after ->
        Concludes program after (trace value)
          (fun deps final => kept (bound.bind summary argument value deps).arguments final) bad)
    (fallback : forall receiver value bound after,
      value ∈ unfilledDefaults summary.declaration arguments -> kept bound after ->
        Concludes program after (trace value)
          (fun deps final => kept (bindHanded bound (receiver, deps)) final) bad)
    (ends : forall bound after, kept bound after -> good (substitute summary bound) after) :
    Concludes program memory (callDependencies trace summary arguments) good bad := by
  unfold callDependencies bindArguments
  simp only [bind_iff, pure_iff]
  refine mono (foldlM_bindArgument_of kept start given) ?_ fun _ _ failed => failed
  rintro bound after ⟨agrees, holds⟩
  have left : Concludes program after (summary.parameters.foldlM (bindDefault trace) bound.arguments)
      kept bad := by
    rw [foldlM_bindDefault agrees.names]
    refine Concludes.foldlM (fun _ => kept) holds ?_
    rintro done item rest split bound after holds
    have listed := mem_defaultsBeside_of_mem_fallbacks (split ▸
      List.mem_append_right done (List.mem_cons_self ..))
    exact (bind_iff ..).2 (fallback item.1 item.2 bound after listed holds)
  exact mono left ends fun _ _ failed => failed

end Concludes

end PhpTaint.Flow
