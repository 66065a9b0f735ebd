import PhpTaint.Proofs.Flow.Simulation

/-!
# Tracing that builds every summary afresh

`afresh` is a visitor like the one that tracing uses, but it keeps no summary from
one expression to the next: whenever a call is followed, the summary of its
function is built again. A summary in a memory is `Trusted` if this gives the same
one. The main results say that keeping summaries makes no difference: as long as
no call is recursive, tracing with trusted summaries and tracing afresh come to
the same end, and every summary that tracing adds can be trusted.
-/

namespace PhpTaint.Flow

open Scopes Syntax Rules

variable {α β : Type} {program : Program} {declared : Node -> Prop} {memory first second : Memory}
  {declaration body : Node}

/-- The memory with other summaries. -/
def Memory.withSummaries (memory : Memory) (summaries : Table Key Summary) : Memory :=
  { memory with summaries := summaries }

/-- Perform a step without the summaries built so far, and drop those that it
builds. -/
def withoutSummaries (step : Tracing α) : Tracing α := fun program memory =>
  Ending.map (step program (memory.withSummaries ∅)) fun after =>
    after.withSummaries memory.summaries

mutual

/-- Trace an expression afresh, to at most the given depth. -/
def traceAfresh : Nat -> Node -> Tracing Deps
  | 0, _ => throw .tooDeep
  | depth + 1, node => withoutSummaries (traceNode ⟨traceAfresh depth, definitionAfresh depth⟩ node)

/-- Trace a definition afresh, to at most the given depth. -/
def definitionAfresh : Nat -> String -> Node -> Tracing Deps
  | 0, _, _ => throw .tooDeep
  | depth + 1, name, node =>
      withoutSummaries (traceDefinition ⟨traceAfresh depth, definitionAfresh depth⟩ name node)

end

/-- The visitor that traces afresh. -/
def afresh (depth : Nat) : Visitor := ⟨traceAfresh depth, definitionAfresh depth⟩

/-- The functions that calls can denote are all declared. -/
def CallsDeclared (program : Program) (declared : Node -> Prop) : Prop :=
  forall node scope function declaration,
    program.registry.scopeOf program.globalScope node = .ok scope ->
    program.registry.resolveFunction scope function = .ok declaration -> declared declaration

section Growth

/-- A visitor by depth lets memories grow if every rule does so with the visitor of
a lower depth. -/
theorem grows_of_depths (calls : CallsDeclared program declared) (visits : Nat -> Visitor)
    (start : forall node name, Advances Grown program ((visits 0).trace node) ∧
      Advances Grown program ((visits 0).definition name node))
    (traces : forall depth node,
      Advances Grown program (traceNode (visits depth) node) ->
        Advances Grown program ((visits (depth + 1)).trace node))
    (definitions : forall depth name node,
      Advances Grown program (traceDefinition (visits depth) name node) ->
        Advances Grown program ((visits (depth + 1)).definition name node))
    (depth : Nat) {step : Visitor -> Tracing α} (uniform : Uniform program declared step) :
    Advances Grown program (step (visits depth)) := by
  have summaries : forall (visitor : Visitor) declaration, declared declaration ->
      (forall body, declaration.child? "body" = some body ->
        Advances Grown program (traceReturns visitor.trace declaration body)) ->
      forall memory, declaration.key ∉ memory.inProgress ->
        Grown memory (Ending.memory (summaryOf visitor.trace declaration program memory)) :=
    fun _ _ _ returns _ idle => Grown.summaryOf returns idle
  induction depth generalizing α with
  | zero =>
      exact uniform.advances Grown.advance (fun node => (start node "").1)
        (fun name node => (start node name).2) (summaries _)
  | succ depth inductionHypothesis =>
      refine uniform.advances Grown.advance (fun node => ?_) (fun name node => ?_) (summaries _)
      · exact traces depth node (inductionHypothesis (Uniform.traceNode node (calls node)))
      · exact definitions depth name node (inductionHypothesis (Uniform.traceDefinition name node))

/-- Whatever tracing does, memories only grow. -/
theorem visitor_grows (calls : CallsDeclared program declared) (depth : Nat)
    {step : Visitor -> Tracing α} (uniform : Uniform program declared step) :
    Advances Grown program (step (visitor depth)) := by
  refine grows_of_depths calls visitor (fun node name => ⟨?_, ?_⟩) (fun depth node grows => ?_)
    (fun depth name node grows => ?_) depth uniform
  · exact Grown.advance.refl
  · exact Grown.advance.refl
  · exact grows
  · exact grows

/-- A step without summaries leaves those of the memory alone. -/
theorem Advances.withoutSummaries {step : Tracing α} (grows : Advances Grown program step) :
    Advances Grown program (withoutSummaries step) := by
  intro memory
  have grown := grows (memory.withSummaries ∅)
  unfold Flow.withoutSummaries
  cases run : step program (memory.withSummaries ∅) with
  | ok value after =>
      rw [run] at grown
      exact ⟨grown.inProgress, fun _ _ found => found, fun _ _ missing => missing, grown.journal⟩
  | error fault after =>
      rw [run] at grown
      exact ⟨grown.inProgress, fun _ _ found => found, fun _ _ missing => missing, grown.journal⟩

/-- A uniform step lets the memory grow when every summary is built afresh. -/
theorem afresh_grows (calls : CallsDeclared program declared) (depth : Nat)
    {step : Visitor -> Tracing α} (uniform : Uniform program declared step) :
    Advances Grown program (step (afresh depth)) := by
  refine grows_of_depths calls afresh (fun node name => ⟨?_, ?_⟩) (fun depth node grows => ?_)
    (fun depth name node grows => ?_) depth uniform
  · exact Grown.advance.refl
  · exact Grown.advance.refl
  · exact grows.withoutSummaries
  · exact grows.withoutSummaries

end Growth

section Blind

/-- A step neither reads the summaries of the memory nor changes them. -/
def Blind (program : Program) (step : Tracing α) : Prop :=
  forall memory summaries, step program (memory.withSummaries summaries) =
    Ending.map (step program memory) fun after => after.withSummaries summaries

/-- A step that begins without summaries is blind to those that there were. -/
theorem Blind.withoutSummaries (step : Tracing α) : Blind program (withoutSummaries step) := by
  intro memory summaries
  unfold Flow.withoutSummaries
  cases run : step program (memory.withSummaries ∅) with
  | ok value after =>
      show Ending.map (step program (memory.withSummaries ∅)) _ = _
      rw [run]
      rfl
  | error fault after =>
      show Ending.map (step program (memory.withSummaries ∅)) _ = _
      rw [run]
      rfl

/-- A trace that builds every summary afresh is blind to those that there were. -/
theorem Blind.traceAfresh (depth : Nat) (node : Node) : Blind program (traceAfresh depth node) := by
  cases depth with
  | zero =>
      intro memory summaries
      rfl
  | succ depth => exact Blind.withoutSummaries _

/-- Two steps that are blind to the summaries are so one after the other. -/
theorem Blind.bind {step : Tracing β} {next : β -> Tracing α} (begins : Blind program step)
    (continues : forall value, Blind program (next value)) : Blind program (step >>= next) := by
  intro memory summaries
  have begun := begins memory summaries
  cases run : step program memory with
  | error fault after =>
      rw [run] at begun
      rw [run_bind_error run, run_bind_error begun]
      rfl
  | ok value after =>
      rw [run] at begun
      rw [run_bind_ok run, run_bind_ok begun]
      exact continues value after summaries

/-- The return statements are traced blindly if expressions are. -/
theorem Blind.traceReturns {trace : Node -> Tracing Deps}
    (blind : forall node, Blind program (trace node)) (declaration body : Node) :
    Blind program (traceReturns trace declaration body) := by
  have statement : forall returns statement, Blind program (traceReturn trace returns statement) := by
    intro returns statement
    unfold traceReturn
    split
    · exact (blind _).bind fun deps _ _ => rfl
    · exact fun _ _ => rfl
  have statements : forall items returns,
      Blind program (List.foldlM (traceReturn trace) returns items) := by
    intro items
    induction items with
    | nil => exact fun _ _ _ => rfl
    | cons item rest inductionHypothesis =>
        intro returns
        rw [List.foldlM_cons]
        exact (statement returns item).bind inductionHypothesis
  unfold Flow.traceReturns
  split
  · exact (blind _).bind fun deps _ _ => rfl
  · exact statements body.returns ∅

/-- Building a summary afresh neither uses other summaries nor adds any. -/
theorem Blind.buildSummary {trace : Node -> Tracing Deps}
    (blind : forall node, Blind program (trace node)) (declaration : Node) :
    Blind program (buildSummary trace declaration) := by
  intro memory summaries
  cases found : declaration.child? "body" with
  | none =>
      rw [buildSummary_without_body found, buildSummary_without_body found]
      rfl
  | some body =>
      have returned := Blind.traceReturns blind declaration body (memory.enter declaration) summaries
      rw [buildSummary_with_body found, buildSummary_with_body found]
      change Flow.traceReturns trace declaration body program
        ((memory.withSummaries summaries).enter declaration) = _ at returned
      rw [returned]
      cases Flow.traceReturns trace declaration body program (memory.enter declaration) <;> rfl

end Blind

section Trust

/-- Whatever the first table has, the second has too. -/
def Within (fewer more : Table Key Summary) : Prop :=
  forall key summary, fewer.find? key = some summary -> more.find? key = some summary

/-- Building the summary afresh gives the same one, unless something in the table
is being built. -/
def Trusted (program : Program) (summaries : Table Key Summary) (summary : Summary) : Prop :=
  ∃ enough, forall depth, enough <= depth -> forall memory : Memory, memory.Quiet ->
    (forall key, key ∈ memory.inProgress -> summaries.find? key = none) ->
    ∃ after, buildSummary (traceAfresh depth) summary.declaration program memory =
        .ok summary after ∧
      after.tracer = memory.tracer ∧ after.stock = memory.stock ∧ after.Quiet

/-- The summaries of a stock can be trusted and are complete. -/
structure Reliable (program : Program) (declared : Node -> Prop) (stock : Stock) : Prop where
  declared : forall key summary, stock.summaries.find? key = some summary ->
    declared summary.declaration ∧ summary.declaration.key = key
  trusted : forall key summary, stock.summaries.find? key = some summary ->
    Trusted program stock.summaries summary
  waiting : forall key, key ∈ stock.inProgress -> stock.summaries.find? key = none

/-- A summary that the larger table misses is missing from the smaller one. -/
theorem Within.missing {fewer more : Table Key Summary} (within : Within fewer more) {key : Key}
    (absent : more.find? key = none) : fewer.find? key = none := by
  cases found : fewer.find? key with
  | none => rfl
  | some summary =>
      have kept := within key summary found
      rw [absent] at kept
      cases kept

theorem Within.empty (table : Table Key Summary) : Within ∅ table := by
  intro key summary found
  cases found

/-- One more summary in both tables keeps the one within the other. -/
theorem Within.insert {fewer more : Table Key Summary} (within : Within fewer more) (key : Key)
    (summary : Summary) : Within (fewer.insert key summary) (more.insert key summary) := by
  intro other found listed
  rw [Table.find?_insert] at listed ⊢
  split
  · rename_i same
    rw [if_pos same] at listed
    exact listed
  · rename_i different
    rw [if_neg different] at listed
    exact within other found listed

/-- A summary that is in the larger table may be added to the smaller one. -/
theorem Within.insert_left {fewer more : Table Key Summary} (within : Within fewer more) {key : Key}
    {summary : Summary} (listed : more.find? key = some summary) :
    Within (fewer.insert key summary) more := by
  intro other found inserted
  rw [Table.find?_insert] at inserted
  split at inserted
  · rename_i same
    cases inserted
    rw [same]
    exact listed
  · exact within other found inserted

/-- A summary that is trusted on few summaries is trusted on more. -/
theorem Trusted.mono {fewer more : Table Key Summary} {summary : Summary}
    (trusted : Trusted program fewer summary) (within : Within fewer more) :
    Trusted program more summary := by
  obtain ⟨enough, builds⟩ := trusted
  exact ⟨enough, fun depth deep memory quiet apart =>
    builds depth deep memory quiet fun key listed => within.missing (apart key listed)⟩

/-- A table stays reliable when a trusted summary is added. -/
theorem Reliable.insert {stock : Stock} (reliable : Reliable program declared stock)
    (declares : declared declaration) (idle : declaration.key ∉ stock.inProgress)
    (missing : stock.summaries.find? declaration.key = none) {summary : Summary}
    (same : summary.declaration = declaration)
    (trusted : Trusted program (stock.summaries.insert declaration.key summary) summary) :
    Reliable program declared ⟨stock.summaries.insert declaration.key summary, stock.inProgress⟩ := by
  have within : Within stock.summaries (stock.summaries.insert declaration.key summary) := by
    intro key other found
    rw [Table.find?_insert_of_ne]
    · exact found
    · rintro rfl
      rw [missing] at found
      cases found
  refine ⟨?_, ?_, ?_⟩
  · intro key other found
    rw [Table.find?_insert] at found
    split at found
    · rename_i sameKey
      cases found
      exact ⟨same ▸ declares, same ▸ sameKey.symm⟩
    · exact reliable.declared key other found
  · intro key other found
    rw [Table.find?_insert] at found
    split at found
    · cases found
      exact trusted
    · exact (reliable.trusted key other found).mono within
  · intro key listed
    rw [Table.find?_insert_of_ne]
    · exact reliable.waiting key listed
    · rintro rfl
      exact idle listed

end Trust

section Building

variable {core : Stock -> Stock -> Prop} {free : Prop}

/-- A relation between stocks that does not mind the same summary being built in
both. -/
structure Nesting (core : Stock -> Stock -> Prop) : Prop where
  enters : forall {first second : Stock} {key : Key}, core first second ->
    first.summaries.find? key = none -> second.summaries.find? key = none ->
      core ⟨first.summaries, key :: first.inProgress⟩ ⟨second.summaries, key :: second.inProgress⟩
  leaves : forall {first second : Stock} {key : Key} {outer other : List Key}, core first second ->
    first.inProgress = key :: outer -> second.inProgress = key :: other ->
      core ⟨first.summaries, outer⟩ ⟨second.summaries, other⟩

/-- That a summary was built is not a note on a recursive call. -/
theorem isRecursionNote_summaryNote (declaration : Node) (returns : Table Nat Deps) :
    isRecursionNote ⟨.debug, .flow, summaryNote declaration returns⟩ = false := by
  unfold isRecursionNote Text.beginsWith summaryNote
  simp only [String.append_assoc, String.toList_append]
  rfl

/-- What building a summary makes of the end of its return statements. -/
def Ending.built (before : Memory) (declaration body : Node) :
    Ending (Table Nat Deps) -> Ending Summary
  | .ok returns after => .ok (Summary.ofReturns declaration body returns after.tracer)
      ((after.leave before declaration).note (summaryNote declaration returns))
  | .error fault after => .error fault (after.leave before declaration)

/-- A summary is built from the return statements, traced inside the declaration. -/
theorem buildSummary_built {trace : Node -> Tracing Deps}
    (found : declaration.child? "body" = some body) :
    buildSummary trace declaration program memory =
      Ending.built memory declaration body
        (traceReturns trace declaration body program (memory.enter declaration)) := by
  rw [buildSummary_with_body found]
  cases traceReturns trace declaration body program (memory.enter declaration) <;> rfl

/-- A summary that was built is the one of its declaration. -/
theorem declaration_of_buildSummary {trace : Node -> Tracing Deps} {summary : Summary}
    (built : buildSummary trace declaration program memory = .ok summary after) :
    summary.declaration = declaration := by
  cases found : declaration.child? "body" with
  | none =>
      rw [buildSummary_without_body found] at built
      cases built
      rfl
  | some body =>
      rw [buildSummary_built found] at built
      cases run : traceReturns trace declaration body program (memory.enter declaration) with
      | error fault final =>
          rw [run] at built
          cases built
      | ok returns final =>
          rw [run] at built
          cases built
          rfl

/-- Building a summary forgets no recursive call of its return statements. -/
theorem Ending.quiet_of_built {ending : Ending (Table Nat Deps)}
    (quiet : (Ending.built memory declaration body ending).memory.Quiet) :
    ending.memory.Quiet := by
  cases ending with
  | error fault after => exact quiet
  | ok returns after =>
      exact (Grown.advance.remark (after.leave memory declaration) _).quiet quiet

/-- A construction that did not go too deep traced return statements that did not. -/
theorem not_exhausted_of_built {ending : Ending (Table Nat Deps)}
    (ended : ¬ Exhausted (Ending.built memory declaration body ending)) : ¬ Exhausted ending := by
  rintro ⟨after, rfl, quiet⟩
  exact ended ⟨after.leave memory declaration, rfl, quiet⟩

/-- Linked memories that lack a summary stay linked when it is entered in both. -/
theorem Linked.enter (nests : Nesting core) (linked : Linked core first second)
    (missing : first.summaries.find? declaration.key = none)
    (otherMissing : second.summaries.find? declaration.key = none) :
    Linked core (first.enter declaration) (second.enter declaration) :=
  ⟨rfl, linked.firstQuiet, linked.secondQuiet, nests.enters linked.core missing otherMissing⟩

/-- What does not disturb building a summary does not disturb its return
statements. -/
theorem Admits.enter {ending : Ending (Table Nat Deps)}
    (admits : Admits free first (Ending.built first declaration body ending) second)
    (missing : first.summaries.find? declaration.key = none)
    (grown : Grown (first.enter declaration) ending.memory) :
    Admits free (first.enter declaration) ending (second.enter declaration) := by
  rcases admits with same | ⟨allowed, summary, after, finished, quiet, apart⟩
  · exact Or.inl (congrArg (declaration.key :: ·) same)
  · cases ending with
    | error fault final => cases finished
    | ok result final =>
        cases finished
        refine Or.inr ⟨allowed, result, final, rfl, ?_, fun key listed => ?_⟩
        · exact (Grown.advance.remark (final.leave first declaration) _).quiet quiet
        · rcases List.mem_cons.1 listed with rfl | earlier
          · exact grown.waiting _ (List.mem_cons_self ..) missing
          · exact apart key earlier

/-- The summaries are built to the same end if the return statements are traced to
the same end. -/
theorem Agrees.built (nests : Nesting core) (linked : Linked core first second)
    {source target : Ending (Table Nat Deps)} (agrees : Agrees core source target)
    (grown : Grown (first.enter declaration) source.memory)
    (otherGrown : Grown (second.enter declaration) target.memory)
    (idle : declaration.key ∉ first.inProgress) (otherIdle : declaration.key ∉ second.inProgress) :
    Agrees core (Ending.built first declaration body source)
      (Ending.built second declaration body target) := by
  cases agrees with
  | @value result after final inside =>
      have restored : (after.leave first declaration).inProgress = first.inProgress :=
        (grown.leave idle).inProgress
      have otherRestored : (final.leave second declaration).inProgress = second.inProgress :=
        (otherGrown.leave otherIdle).inProgress
      have left : Linked core (after.leave first declaration)
          (final.leave second declaration) := by
        refine ⟨linked.tracer, inside.firstQuiet, inside.secondQuiet, ?_⟩
        unfold Memory.stock
        rw [restored, otherRestored]
        exact nests.leaves inside.core grown.inProgress otherGrown.inProgress
      simp only [Ending.built, inside.tracer]
      exact .value (left.note (isRecursionNote_summaryNote declaration result))
  | fault firstQuiet secondQuiet => exact .fault firstQuiet secondQuiet
  | recursive firstLoud secondLoud =>
      exact .recursive (fun quiet => firstLoud (Ending.quiet_of_built quiet))
        (fun quiet => secondLoud (Ending.quiet_of_built quiet))

/-- A summary that is built again is the same if the return statements are traced
to the same end. -/
theorem follows_buildSummary (nests : Nesting core) {source : Node -> Tracing Deps}
    {target : Nat -> Node -> Tracing Deps}
    (sourceGrows : forall body, declaration.child? "body" = some body ->
      Advances Grown program (traceReturns source declaration body))
    (targetGrows : forall depth body, declaration.child? "body" = some body ->
      Advances Grown program (traceReturns (target depth) declaration body))
    (returns : forall body, declaration.child? "body" = some body ->
      Follows core free program (traceReturns source declaration body) fun depth =>
        traceReturns (target depth) declaration body)
    (missing : first.summaries.find? declaration.key = none)
    (idle : declaration.key ∉ first.inProgress)
    (ended : ¬ Exhausted (buildSummary source declaration program first)) :
    ∃ enough, forall depth, enough <= depth -> forall second, Linked core first second ->
      second.summaries.find? declaration.key = none -> declaration.key ∉ second.inProgress ->
      Admits free first (buildSummary source declaration program first) second ->
        Agrees core (buildSummary source declaration program first)
          (buildSummary (target depth) declaration program second) := by
  cases found : declaration.child? "body" with
  | none =>
      refine ⟨0, fun depth _ second linked _ _ _ => ?_⟩
      rw [buildSummary_without_body found, buildSummary_without_body found]
      exact .value linked
  | some body =>
      have grown := sourceGrows body found (first.enter declaration)
      simp only [buildSummary_built found] at ended ⊢
      obtain ⟨enough, agrees⟩ := returns body found (first.enter declaration)
        (not_exhausted_of_built ended)
      refine ⟨enough, fun depth deep second linked otherMissing otherIdle admits => ?_⟩
      have otherGrown := targetGrows depth body found (second.enter declaration)
      have agreed := agrees depth deep (second.enter declaration)
        (linked.enter nests missing otherMissing) (admits.enter missing grown)
      exact agreed.built nests linked grown otherGrown idle otherIdle

end Building

end PhpTaint.Flow
