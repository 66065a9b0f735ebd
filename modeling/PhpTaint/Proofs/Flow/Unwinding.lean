import PhpTaint.Proofs.Flow.Afresh
import PhpTaint.Proofs.Flow.Warrants

/-!
# What a fault leaves behind

Summaries are built in the middle of traces, so a fault can unwind through any
number of half-built summaries and followed definitions. `ComesTo` says of a run
that it comes to another one on its way, in whatever depth. A fault of the inner run
is the fault of the outer one, and no summary is added while it unwinds.

So a request leaves an analysis as it found it, with the summaries that were
completed on the way and no other: what is being followed and built is as before,
every summary is kept, and a declaration whose summary failed has none.
-/

namespace PhpTaint.Flow

open Scopes Syntax Rules
open Forward (escapingRules)

section Runs

variable {α : Type} {program : Program} {memory : Memory}

/-- A definition is marked while a step runs, and the mark goes however the step ends. -/
theorem run_whileActive (key : Key) (step : Tracing α) :
    whileActive key step program memory =
      match step program (memory.activate key) with
      | .ok value final => .ok value (final.release key)
      | .error fault final => .error fault (final.release key) := rfl

/-- A declaration is marked while a step runs, and the mark goes however the step ends. -/
theorem run_whileInProgress (key : Key) (step : Tracing α) :
    whileInProgress key step program memory =
      match step program (memory.begin key) with
      | .ok value final => .ok value (final.finish key)
      | .error fault final => .error fault (final.finish key) := rfl

/-- A step under a tracer of its own gives the old one back however it ends. -/
theorem run_withTracer (tracer : Tracer) (step : Tracing α) :
    withTracer tracer step program memory =
      match step program (memory.withTracer tracer) with
      | .ok value final => .ok (value, final.tracer) (final.withTracer memory.tracer)
      | .error fault final => .error fault (final.withTracer memory.tracer) := rfl

end Runs

/-- A run of a step from a memory comes to a run of `inner` from `start`. -/
inductive ComesTo {β : Type} (program : Program) (inner : Tracing β) (start : Memory) :
    {α : Type} -> Tracing α -> Memory -> Prop where
  /-- It is that run. -/
  | here : ComesTo program inner start inner start
  /-- The first of two steps comes to it. -/
  | first {α γ : Type} {first : Tracing γ} {next : γ -> Tracing α} {memory : Memory}
      (comes : ComesTo program inner start first memory) :
      ComesTo program inner start (first >>= next) memory
  /-- The second of two steps comes to it. -/
  | later {α γ : Type} {first : Tracing γ} {next : γ -> Tracing α} {memory middle : Memory}
      {value : γ} (ended : first program memory = .ok value middle)
      (comes : ComesTo program inner start (next value) middle) :
      ComesTo program inner start (first >>= next) memory
  /-- It is come to while a definition is being followed. -/
  | whileActive {α : Type} {step : Tracing α} {memory : Memory} {key : Key}
      (comes : ComesTo program inner start step (memory.activate key)) :
      ComesTo program inner start (whileActive key step) memory
  /-- It is come to while a summary is being built. -/
  | whileInProgress {α : Type} {step : Tracing α} {memory : Memory} {key : Key}
      (comes : ComesTo program inner start step (memory.begin key)) :
      ComesTo program inner start (whileInProgress key step) memory
  /-- It is come to with another tracer. -/
  | withTracer {α : Type} {step : Tracing α} {memory : Memory} {tracer : Tracer}
      (comes : ComesTo program inner start step (memory.withTracer tracer)) :
      ComesTo program inner start (withTracer tracer step) memory

namespace ComesTo

variable {α β γ : Type} {program : Program} {inner : Tracing β} {start memory : Memory}

/-- A fault of a run that is come to is a fault of the whole run, and no summary is
added any more. -/
theorem fails {outer : Tracing α} (comes : ComesTo program inner start outer memory)
    {fault : Fault} {after : Memory} (ended : inner program start = .error fault after) :
    ∃ final, outer program memory = .error fault final ∧ final.summaries = after.summaries := by
  induction comes with
  | here => exact ⟨after, ended, rfl⟩
  | first _ inductionHypothesis =>
      obtain ⟨final, failed, same⟩ := inductionHypothesis
      exact ⟨final, run_bind_error failed _, same⟩
  | later done _ inductionHypothesis =>
      obtain ⟨final, failed, same⟩ := inductionHypothesis
      exact ⟨final, (run_bind_ok done _).trans failed, same⟩
  | @whileActive _ step memory key _ inductionHypothesis =>
      obtain ⟨final, failed, same⟩ := inductionHypothesis
      exact ⟨final.release key, by rw [run_whileActive, failed], same⟩
  | @whileInProgress _ step memory key _ inductionHypothesis =>
      obtain ⟨final, failed, same⟩ := inductionHypothesis
      exact ⟨final.finish key, by rw [run_whileInProgress, failed], same⟩
  | @withTracer _ step memory tracer _ inductionHypothesis =>
      obtain ⟨final, failed, same⟩ := inductionHypothesis
      exact ⟨final.withTracer memory.tracer, by rw [run_withTracer, failed], same⟩

/-- What comes after a look at the program. -/
theorem read {next : Program -> Tracing α}
    (comes : ComesTo program inner start (next program) memory) :
    ComesTo program inner start (read >>= next) memory :=
  @ComesTo.later _ _ _ _ _ _ _ _ memory memory program rfl comes

/-- What comes after a look at the memory. -/
theorem look {next : Memory -> Tracing α}
    (comes : ComesTo program inner start (next memory) memory) :
    ComesTo program inner start (get >>= next) memory :=
  @ComesTo.later _ _ _ _ _ _ _ _ memory memory memory rfl comes

/-- What a run comes to comes to is come to. -/
theorem trans {outer : Tracing α} {between : Tracing γ} {middle : Memory}
    (comes : ComesTo program between middle outer memory)
    (onward : ComesTo program inner start between middle) :
    ComesTo program inner start outer memory := by
  induction comes with
  | here => exact onward
  | first _ inductionHypothesis => exact .first inductionHypothesis
  | later done _ inductionHypothesis => exact .later done inductionHypothesis
  | whileActive _ inductionHypothesis => exact .whileActive inductionHypothesis
  | whileInProgress _ inductionHypothesis => exact .whileInProgress inductionHypothesis
  | withTracer _ inductionHypothesis => exact .withTracer inductionHypothesis

end ComesTo

section Summaries

variable {program : Program} {memory after : Memory} {declaration : Node} {fault : Fault}

/-- Whatever functions calls can denote, memories grow while return statements are
traced. -/
theorem traceReturns_grows (program : Program) (depth : Nat) (declaration body : Node) :
    Advances Grown program (traceReturns (traceWithin depth) declaration body) :=
  have calls : CallsDeclared program fun _ => True := fun _ _ _ _ _ _ => trivial
  visitor_grows calls depth (Uniform.traceReturns declaration body)

/-- A summary is built only where there is none, and a declaration whose summary
fails has none afterwards. -/
theorem missing_of_summaryOf {depth : Nat}
    (failed : summaryOf (traceWithin depth) declaration program memory = .error fault after) :
    after.summaries.find? declaration.key = none := by
  cases present : memory.summaries.find? declaration.key with
  | some summary =>
      rw [summaryOf_found present] at failed
      cases failed
  | none =>
      have unbuilt : buildSummary (traceWithin depth) declaration program memory =
          .error fault after := by
        rw [summaryOf_missing present] at failed
        cases run : buildSummary (traceWithin depth) declaration program memory with
        | ok summary final =>
            rw [run] at failed
            cases failed
        | error other final =>
            rw [run] at failed
            exact failed
      cases found : declaration.child? "body" with
      | none =>
          rw [buildSummary_without_body found] at unbuilt
          cases unbuilt
      | some body =>
          have grown := traceReturns_grows program depth declaration body (memory.enter declaration)
          rw [buildSummary_with_body found] at unbuilt
          cases run : traceReturns (traceWithin depth) declaration body program
              (memory.enter declaration) with
          | ok returns final =>
              rw [run] at unbuilt
              cases unbuilt
          | error other final =>
              rw [run] at unbuilt grown
              cases unbuilt
              -- while its summary is being built, a declaration is not given one
              exact grown.waiting declaration.key (List.mem_cons_self ..) present

end Summaries

/-- A call of a declared function comes to its summary. -/
theorem comesTo_of_call {program : Program} {memory : Memory} {node target declaration : Node}
    {scope : ScopeId} {trace : Node -> Tracing Deps}
    (callee : calleeOf program.rules node = .named target)
    (follows : memory.tracer.followsCalls = true)
    (located : program.registry.scopeOf program.globalScope node = .ok scope)
    (resolved : program.registry.resolveFunction scope target.text = .ok declaration)
    (idle : declaration.key ∉ memory.inProgress) :
    ComesTo program (summaryOf trace declaration) memory (traceCall trace node) memory := by
  have followed : ComesTo program (summaryOf trace declaration) memory
      (followCall trace node target.text) memory := by
    have stands : scopeOfNode node program memory = .ok scope memory := by
      unfold scopeOfNode
      rw [run_bind]
      show orFault (program.registry.scopeOf program.globalScope node) program memory = _
      rw [located]
      rfl
    refine .later stands (.read ?_)
    rw [resolved]
    refine .look ?_
    simp only
    rw [if_neg fun listed => idle (List.contains_iff_mem.1 listed)]
    exact .first .here
  unfold calleeOf at callee
  unfold traceCall
  cases found : node.child? "function" with
  | none =>
    rw [found] at callee
    cases callee
  | some function =>
    rw [found] at callee
    simp only at callee ⊢
    split at callee
    · rename_i named
      split at callee
      · cases callee
      · rename_i foreign
        cases Callee.named.inj callee
        rw [named]
        simp only [Bool.not_true, Bool.false_eq_true, if_false]
        refine .read ?_
        rw [if_neg foreign]
        refine .look ?_
        rw [follows]
        exact .first followed
    · cases callee

section Accounts

variable {α β : Type} {program : Program}

/-- A run comes to the construction of a summary for a key, and that ends well. -/
def Builds (program : Program) (step : Tracing α) (memory : Memory) (key : Key) : Prop :=
  ∃ depth declaration start summary after, declaration.key = key ∧
    ComesTo program (summaryOf (traceWithin depth) declaration) start step memory ∧
    summaryOf (traceWithin depth) declaration program start = .ok summary after

/-- What an inner run builds is built by the run that comes to it. -/
theorem Builds.through {step : Tracing α} {inner : Tracing β} {memory start : Memory} {key : Key}
    (builds : Builds program inner start key) (comes : ComesTo program inner start step memory) :
    Builds program step memory key := by
  obtain ⟨depth, declaration, middle, summary, after, same, onward, ended⟩ := builds
  exact ⟨depth, declaration, middle, summary, after, same, comes.trans onward, ended⟩

/-- A step that adds a summary comes to its construction. -/
def Accounts (program : Program) (step : Tracing α) : Prop :=
  forall memory key, memory.summaries.find? key = none ->
    (Ending.memory (step program memory)).summaries.find? key ≠ none ->
      Builds program step memory key

namespace Accounts

/-- A step that leaves the summaries alone has none to account for. -/
theorem of_unchanged {step : Tracing α}
    (unchanged : forall memory, (Ending.memory (step program memory)).summaries =
      memory.summaries) : Accounts program step := by
  intro memory key missing added
  rw [unchanged] at added
  exact absurd missing added

theorem pure (value : α) : Accounts program (Pure.pure value) := of_unchanged fun _ => rfl

theorem orFault (result : Except Fault α) : Accounts program (orFault result) :=
  of_unchanged fun _ => by cases result <;> rfl

theorem read {next : Program -> Tracing α} (accounts : Accounts program (next program)) :
    Accounts program (read >>= next) := by
  intro memory key missing added
  exact (accounts memory key missing added).through (.read .here)

/-- Two steps that account for their summaries do so one after the other. -/
theorem bind {first : Tracing β} {next : β -> Tracing α} (begins : Accounts program first)
    (continues : forall value, Accounts program (next value)) :
    Accounts program (first >>= next) := by
  intro memory key missing added
  rw [run_bind] at added
  cases run : first program memory with
  | error fault after =>
      rw [run] at added
      refine (begins memory key missing ?_).through (.first .here)
      rw [run]
      exact added
  | ok value middle =>
      rw [run] at added
      cases present : middle.summaries.find? key with
      | none => exact (continues value middle key present added).through (.later run .here)
      | some summary =>
          refine (begins memory key missing ?_).through (.first .here)
          rw [run]
          exact fun absent => by cases present.symm.trans absent

/-- A mark on a definition builds no summary. -/
theorem whileActive {step : Tracing α} (accounts : Accounts program step) (key : Key) :
    Accounts program (whileActive key step) := by
  intro memory other missing added
  refine (accounts (memory.activate key) other missing ?_).through (.whileActive .here)
  rw [run_whileActive] at added
  cases run : step program (memory.activate key) <;> rw [run] at added <;> exact added

/-- A mark on a declaration builds no summary. -/
theorem whileInProgress {step : Tracing α} (accounts : Accounts program step) (key : Key) :
    Accounts program (whileInProgress key step) := by
  intro memory other missing added
  refine (accounts (memory.begin key) other missing ?_).through (.whileInProgress .here)
  rw [run_whileInProgress] at added
  cases run : step program (memory.begin key) <;> rw [run] at added <;> exact added

/-- A change of the tracer builds no summary. -/
theorem withTracer {step : Tracing α} (accounts : Accounts program step) (tracer : Tracer) :
    Accounts program (withTracer tracer step) := by
  intro memory key missing added
  refine (accounts (memory.withTracer tracer) key missing ?_).through (.withTracer .here)
  rw [run_withTracer] at added
  cases run : step program (memory.withTracer tracer) <;> rw [run] at added <;> exact added

/-- The return statements account for all summaries that come up while one is built. -/
theorem buildSummary {trace : Node -> Tracing Deps} {declaration : Node}
    (returns : forall body, declaration.child? "body" = some body ->
      Accounts program (traceReturns trace declaration body)) :
    Accounts program (buildSummary trace declaration) := by
  unfold Flow.buildSummary
  cases found : declaration.child? "body" with
  | none => exact pure _
  | some body =>
      refine bind (.whileInProgress (.withTracer (returns body found) _) _) fun built => ?_
      exact bind (of_unchanged fun _ => rfl) fun _ => pure _

/-- The summary itself is added if its construction ends well, and any other one on
the way. -/
theorem summaryOf {depth : Nat} {declaration : Node}
    (returns : forall body, declaration.child? "body" = some body ->
      Accounts program (traceReturns (traceWithin depth) declaration body)) :
    Accounts program (summaryOf (traceWithin depth) declaration) := by
  intro memory key missing added
  cases present : memory.summaries.find? declaration.key with
  | some earlier =>
      rw [summaryOf_found present] at added
      exact absurd missing added
  | none =>
      have comes : ComesTo program (Flow.buildSummary (traceWithin depth) declaration) memory
          (Flow.summaryOf (traceWithin depth) declaration) memory := by
        refine .look ?_
        rw [present]
        exact .first .here
      have ended : Flow.summaryOf (traceWithin depth) declaration program memory = _ :=
        summaryOf_missing present
      rw [ended] at added
      cases run : Flow.buildSummary (traceWithin depth) declaration program memory with
      | error fault final =>
          rw [run] at added
          refine (buildSummary returns memory key missing ?_).through comes
          rw [run]
          exact added
      | ok summary final =>
          rw [run] at added ended
          by_cases own : key = declaration.key
          · exact ⟨depth, declaration, memory, summary, _, own.symm, .here, ended⟩
          · refine (buildSummary returns memory key missing ?_).through comes
            rw [run]
            exact fun absent => added ((Table.find?_insert_of_ne _ _ own).trans absent)

end Accounts

/-- A uniform step accounts for its summaries if its visitor does. -/
theorem Uniform.accounts {declared : Node -> Prop} {depth : Nat}
    (traces : forall node, Accounts program (traceWithin depth node))
    (definitions : forall name node, Accounts program (definitionWithin depth name node))
    {step : Visitor -> Tracing α} (uniform : Uniform program declared step) :
    Accounts program (step (visitor depth)) := by
  induction uniform with
  | pure value => exact .pure value
  | orFault result => exact .orFault result
  | read _ inductionHypothesis => exact inductionHypothesis.read
  | look _ _ inductionHypothesis =>
      intro memory key missing added
      exact (inductionHypothesis memory memory key missing added).through (.look .here)
  | remark text => exact .of_unchanged fun _ => rfl
  | updateTracer change => exact .of_unchanged fun _ => rfl
  | trace node => exact traces node
  | definition name node => exact definitions name node
  | bind _ _ begins continues => exact .bind begins continues
  | whileActive key _ inductionHypothesis => exact inductionHypothesis.whileActive key
  | @summary _ declaration text answer next _ _ _ _ inner continues =>
      intro memory key missing added
      by_cases listed : declaration.key ∈ memory.inProgress
      · rw [enterSummary_recursive listed] at added
        exact absurd missing added
      · rw [enterSummary_idle listed] at added
        refine (Accounts.bind (.summaryOf inner) continues memory key missing
          added).through (.look ?_)
        rw [if_neg fun present => listed (List.contains_iff_mem.1 present)]
        exact .here

/-- Whatever tracing adds to the summaries, it was built on the way. -/
theorem visitor_accounts (depth : Nat) {step : Visitor -> Tracing α}
    (uniform : Uniform program (fun _ => True) step) : Accounts program (step (visitor depth)) := by
  induction depth generalizing α with
  | zero =>
      refine uniform.accounts (fun node => ?_) (fun name node => ?_)
      · exact .of_unchanged fun _ => by rw [traceWithin]; rfl
      · exact .of_unchanged fun _ => by rw [definitionWithin]; rfl
  | succ depth inductionHypothesis =>
      refine uniform.accounts (fun node => ?_) (fun name node => ?_)
      · rw [traceWithin]
        exact inductionHypothesis (Uniform.traceNode node fun _ _ _ _ _ => trivial)
      · rw [definitionWithin]
        exact inductionHypothesis (Uniform.traceDefinition name node)

end Accounts

section Requests

variable {α β : Type} {program : Program}

/-- A property of steps that is kept in all the ways in which demands are met. -/
structure Demand.Closed (program : Program) (property : forall {α : Type}, Tracing α -> Prop) :
    Prop where
  pure : forall {α : Type} (value : α), property (Pure.pure value : Tracing α)
  orFault : forall {α : Type} (result : Except Fault α), property (orFault result)
  read : forall {α : Type} (next : Program -> Tracing α), property (next program) ->
    property (read >>= next)
  bind : forall {α β : Type} (first : Tracing β) (next : β -> Tracing α), property first ->
    (forall value, property (next value)) -> property (first >>= next)
  withTracer : forall {α : Type} (tracer : Tracer) (step : Tracing α), property step ->
    property (withTracer tracer step)
  visits : forall {α : Type} (step : Visitor -> Tracing α), Uniform program (fun _ => True) step ->
    property (step (visitor program.depth))
  summaries : forall declaration, property (summaryOf (traceWithin program.depth) declaration)

/-- Such a property holds of every demand. -/
theorem Demand.Closed.perform {property : forall {α : Type}, Tracing α -> Prop}
    (closed : Demand.Closed program property) (demand : Demand) : property demand.perform := by
  have traced : forall node, property (trace node) :=
    fun node => closed.read _ (closed.visits _ (.trace node))
  have called : forall summary arguments, property (summaryCall summary arguments) :=
    fun summary arguments => closed.read _ (closed.visits _ (.callDependencies summary arguments))
  have summarized : forall declaration, property (summarizeFunction declaration) :=
    fun declaration => closed.read _ (closed.summaries declaration)
  have named : forall scope function, property (summarizeNamed scope function) :=
    fun scope function => closed.read _ (closed.bind _ _ (closed.orFault _) summarized)
  have judged : forall summary arguments, property (analyseCall summary arguments) :=
    fun summary arguments =>
      closed.bind _ _ (closed.withTracer _ _ (called summary arguments)) fun _ => closed.pure _
  cases demand with
  | query question =>
      refine closed.bind _ _ ?_ fun _ => closed.pure _
      cases question with
      | expression node =>
          refine closed.bind _ _ ?_ fun _ => closed.pure _
          exact closed.bind _ _ (closed.withTracer _ _ (traced node)) fun _ => closed.pure _
      | call declaration arguments =>
          refine closed.bind _ _ (summarized declaration) fun summary => ?_
          exact closed.bind _ _ (judged summary arguments) fun _ => closed.pure _
      | named scope function arguments =>
          refine closed.bind _ _ (named scope function) fun summary => ?_
          exact closed.bind _ _ (judged summary arguments) fun _ => closed.pure _
  | expression node => exact closed.bind _ _ (traced node) fun _ => closed.pure _
  | summary declaration => exact closed.bind _ _ (summarized declaration) fun _ => closed.pure _
  | named scope function => exact closed.bind _ _ (named scope function) fun _ => closed.pure _
  | call declaration arguments =>
      refine closed.bind _ _ (summarized declaration) fun summary => ?_
      exact closed.bind _ _ (called summary arguments) fun _ => closed.pure _

/-- A step that is started while no summary is being built lets the memory grow. -/
def GrowsQuietly (program : Program) (step : Tracing α) : Prop :=
  forall memory, memory.inProgress = [] -> Grown memory (Ending.memory (step program memory))

/-- Growth of the memory is kept in all the ways in which demands are met. -/
theorem growsQuietly_closed (program : Program) : Demand.Closed program (GrowsQuietly program) where
  pure _ memory _ := Grown.advance.refl memory
  orFault result memory _ := by cases result <;> exact Grown.advance.refl memory
  read _ grows memory quiet := grows memory quiet
  bind first next begins continues memory quiet := by
    have grown := begins memory quiet
    rw [run_bind]
    cases run : first program memory with
    | error fault after =>
        rw [run] at grown
        exact grown
    | ok value after =>
        rw [run] at grown
        exact Grown.advance.trans _ _ _ grown
          (continues value after (grown.inProgress.trans quiet))
  withTracer tracer step grows memory quiet := by
    have grown := grows (memory.withTracer tracer) quiet
    rw [run_withTracer]
    cases run : step program (memory.withTracer tracer) with
    | ok value after | error fault after =>
        rw [run] at grown
        exact Grown.advance.tracer (memory.withTracer tracer) after memory.tracer memory.tracer grown
  visits _ uniform memory _ :=
    visitor_grows (fun _ _ _ _ _ _ => trivial) program.depth uniform memory
  summaries declaration memory quiet := by
    refine Grown.summaryOf (fun body _ => traceReturns_grows program _ declaration body) ?_
    rw [quiet]
    exact List.not_mem_nil

/-- Demands are met by steps that account for their summaries. -/
theorem accounts_closed (program : Program) : Demand.Closed program (Accounts program) where
  pure := Accounts.pure
  orFault := Accounts.orFault
  read _ accounts := accounts.read
  bind _ _ begins continues := .bind begins continues
  withTracer tracer _ accounts := accounts.withTracer tracer
  visits _ uniform := visitor_accounts program.depth uniform
  summaries declaration := .summaryOf fun body _ =>
    visitor_accounts program.depth (Uniform.traceReturns declaration body)

/-- However a request ends, nothing is left half-done: what was being built and what
the tracer was following is as before, and every summary is kept as it was. A summary
that is added was built on the way, and a declaration whose summary failed on the way
has none. -/
theorem requests_unwind (program : Program) (requests : List Request) (request : Request) :
    let desk := Desk.following program requests
    let final := (desk.run program request).memory
    final.inProgress = desk.memory.inProgress ∧
    final.tracer.active = (desk.tracerAt request.seat).active ∧
    (forall key summary, desk.memory.summaries.find? key = some summary ->
      final.summaries.find? key = some summary) ∧
    (forall key, desk.memory.summaries.find? key = none -> final.summaries.find? key ≠ none ->
      Builds program request.demand.perform (desk.before request) key) ∧
    forall depth declaration start fault after,
      ComesTo program (summaryOf (traceWithin depth) declaration) start
        request.demand.perform (desk.before request) ->
      summaryOf (traceWithin depth) declaration program start = .error fault after ->
        final.summaries.find? declaration.key = none := by
  intro desk final
  have lawful := warrants_lawful program
  have holds : desk.Holds (warrants program.rules) :=
    Desk.following_holds lawful fun request _ => within_warrants program request.demand
  have kept : Kept (desk.before request) final := by
    have obeys := holds.run lawful (within_warrants program request.demand)
    unfold Regime.Obeys Keeps Concludes at obeys
    show Kept _ (Ending.memory (request.demand.perform program (desk.before request)))
    cases run : request.demand.perform program (desk.before request) with
    | ok reply after | error fault after =>
        rw [run] at obeys
        exact obeys.2.2
  have grown : Grown (desk.before request) final :=
    (growsQuietly_closed program).perform request.demand (desk.before request) holds.quiet
  refine ⟨kept.inProgress, kept.active, grown.summaries, ?_, ?_⟩
  · exact (accounts_closed program).perform request.demand (desk.before request)
  · intro depth declaration start fault after comes failed
    obtain ⟨last, ended, same⟩ := comes.fails failed
    have final_eq : final = last := congrArg Ending.memory ended
    rw [final_eq, same]
    exact missing_of_summaryOf failed

end Requests

/-- A function that returns what another one returns, and a variable that is not
annotated, in `failingFile`. -/
def failingDeclaration : Tree :=
  .node "function_definition" true 33 79 "" [
    .node "name" true 42 43 "name" [],
    .node "formal_parameters" true 43 45 "parameters" [],
    .node "compound_statement" true 46 79 "body" [
      .node "return_statement" true 48 59 "" [
        .node "function_call_expression" true 55 58 "" [
          .node "name" true 55 56 "function" [], .node "arguments" true 56 58 "arguments" []]],
      .node "global_declaration" true 60 77 "" [
        .node "return_statement" true 67 77 "" [.node "variable_name" true 74 76 "" []]]]]

/-- The function that is called in `failingDeclaration`. -/
def succeedingDeclaration : Tree :=
  .node "function_definition" true 6 32 "" [
    .node "name" true 15 16 "name" [],
    .node "formal_parameters" true 16 18 "parameters" [],
    .node "compound_statement" true 19 32 "body" [
      .node "return_statement" true 21 30 "" [.node "integer" true 28 29 "" []]]]

/-- The call in `failingFile`. -/
def failingCall : Tree :=
  .node "function_call_expression" true 80 83 "" [
    .node "name" true 80 81 "function" [], .node "arguments" true 81 83 "arguments" []]

/-- The file
`<?php function h() { return 1; } function g() { return h(); global return $x; } g();`. -/
def failingFile : Node :=
  ⟨⟨"failing.php", ("<?php function h() \x7b return 1; \x7d " ++
      "function g() \x7b return h(); global return $x; \x7d g();").toUTF8⟩,
    .node "program" true 0 84 "" [
      succeedingDeclaration, failingDeclaration,
      .node "expression_statement" true 80 84 "" [failingCall]]⟩

/-- The call in `failingFile` is one of the function that fails. -/
theorem failingCall_callee : ∃ target,
    calleeOf escapingRules (failingFile.withTree failingCall) = .named target ∧
      target.text = "g" := by
  let target := failingFile.withTree (.node "name" true 80 81 "function" [])
  have callee : (failingFile.withTree failingCall).child? "function" = some target := rfl
  have isName : isFunctionNameKind target.kind = true := by decide
  have trusted : escapingRules.isInputFunction (normalizeName target.text) = false := by
    decide +kernel
  refine ⟨target, ?_, by decide +kernel⟩
  simp [calleeOf, callee, isName, trusted]

/-- Tracing a call fails in the summary of the called function, after the summary of
another one was completed: that one is kept, and nothing of the failed one. -/
theorem requests_unwind_nested :
    let node := failingFile.withTree failingCall
    let request : Request := ⟨.fresh [] true, .expression node⟩
    ∃ ends annotator, [failingFile].mapM Annotation.annotateProgram
        Annotation.Annotator.start = .ok ends annotator ∧
      let program := Program.ofAnnotated annotator escapingRules [failingFile]
      let desk := Desk.following program []
      let final := (desk.run program request).memory
      (∃ depth declaration fault after,
        declaration.key = (failingFile.withTree failingDeclaration).key ∧
        ComesTo program (summaryOf (traceWithin depth) declaration) (desk.before request)
          request.demand.perform (desk.before request) ∧
        summaryOf (traceWithin depth) declaration program (desk.before request) =
          .error fault after) ∧
      final.summaries.keys = [(failingFile.withTree succeedingDeclaration).key] ∧
      final.summaries.find? (failingFile.withTree failingDeclaration).key = none ∧
      final.inProgress = [] ∧ final.tracer.active = [] := by
  intro node request
  have ran : Outcome.passes (fun _ annotator =>
      let program := Program.ofAnnotated annotator escapingRules [failingFile]
      let desk := Desk.following program []
      (program.registry.scopeOf program.globalScope node).toOption.any fun scope =>
        (program.registry.resolveFunction scope "g").toOption.any fun declaration =>
          decide (declaration.key = (failingFile.withTree failingDeclaration).key) &&
          decide (program.depth = program.depth - 1 + 1) &&
          !Outcome.passes (fun _ _ => true) (summaryOf (traceWithin (program.depth - 1))
            declaration program (desk.before request)) &&
          decide ((desk.run program request).memory.summaries.keys =
            [(failingFile.withTree succeedingDeclaration).key]))
      ([failingFile].mapM Annotation.annotateProgram Annotation.Annotator.start) = true := by
    decide +kernel
  obtain ⟨ends, annotator, outcome, checked⟩ := Outcome.exists_of_passes ran
  refine ⟨ends, annotator, outcome, ?_⟩
  intro program desk final
  obtain ⟨scope, located, checked⟩ := (Option.any_eq_true _ _).1 checked
  obtain ⟨declaration, resolved, checked⟩ := (Option.any_eq_true _ _).1 checked
  replace located := Outcome.eq_ok_of_toOption located
  replace resolved := Outcome.eq_ok_of_toOption resolved
  simp only [Bool.and_eq_true, decide_eq_true_eq, Bool.not_eq_true'] at checked
  obtain ⟨⟨⟨named, deep⟩, failing⟩, keys⟩ := checked
  obtain ⟨fault, after, failed⟩ := Outcome.exists_of_not_passes failing
  have called : ComesTo program (summaryOf (traceWithin (program.depth - 1)) declaration)
      (desk.before request) (traceWithin program.depth node) (desk.before request) := by
    obtain ⟨target, callee, name⟩ := failingCall_callee
    rw [← name] at resolved
    rw [deep, traceWithin]
    exact comesTo_of_call callee rfl located resolved List.not_mem_nil
  have comes : ComesTo program (summaryOf (traceWithin (program.depth - 1)) declaration)
      (desk.before request) request.demand.perform (desk.before request) :=
    .first (.read called)
  obtain ⟨inProgress, active, _, _, failures⟩ := requests_unwind program [] request
  have absent := failures _ declaration _ fault after comes failed
  rw [named] at absent
  refine ⟨⟨_, declaration, fault, after, named, comes, failed⟩, keys, absent, inProgress, ?_⟩
  rw [active]
  rfl

end PhpTaint.Flow
