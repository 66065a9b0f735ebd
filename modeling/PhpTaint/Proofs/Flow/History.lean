import PhpTaint.Proofs.Flow.Backward
import PhpTaint.Proofs.Flow.Transparency

/-!
# Answers do not depend on earlier questions

An analysis answers questions about annotated files one after the other and keeps
the summaries it builds on the way. `session` asks several questions in a row;
`alone` asks one with nothing kept. As long as no call is recursive, and no two
functions have one key, a question of a session is answered like that question
alone.

Every run is bounded in depth, so what a question is answered is what it is
answered at every sufficient depth; a question that is too deep at every depth is
one that is never answered. The equivalence in `session_answers_eq_alone` covers
both.
-/

namespace PhpTaint.Flow

open Scopes Syntax Rules
open Forward (escapingRules)

/-- A question about annotated files. -/
inductive Query where
  /-- What an expression depends on where it stands. -/
  | expression (node : Node)
  /-- What a declared function returns for some arguments. -/
  | call (declaration : Node) (arguments : List Node)
  /-- What the function that a name denotes at a scope returns for some arguments. -/
  | named (scope : ScopeId) (function : String) (arguments : List Node)

/-- The answer to a question. -/
inductive Answer where
  /-- The dependencies of an expression. -/
  | dependencies (deps : Deps)
  /-- Taint and sanitizers of a returned value. -/
  | verdict (level : Level) (sanitizers : NameSet)

namespace Query

/-- Answer a question with the functions of the analysis. -/
def perform : Query -> Tracing Answer
  | expression node => do
      let deps ← traceInPlace node
      return .dependencies deps
  | call declaration arguments => do
      let summary ← summarizeFunction declaration
      let (level, sanitizers) ← analyseCall summary arguments
      return .verdict level sanitizers
  | named scope function arguments => do
      let summary ← summarizeNamed scope function
      let (level, sanitizers) ← analyseCall summary arguments
      return .verdict level sanitizers

/-- Answer for a summary and some arguments. -/
def judge (visitor : Visitor) (summary : Summary) (arguments : List Node) : Tracing Answer := do
  let (deps, _) ← withTracer (Tracer.fresh [] true)
    (callDependencies visitor.trace summary arguments)
  return .verdict deps.level deps.sanitizers

/-- Answer a question with a visitor. -/
def performWith (visitor : Visitor) : Query -> Tracing Answer
  | expression node => do
      let (deps, _) ← withTracer (Tracer.fresh [] true) (visitor.trace node)
      return .dependencies deps
  | call declaration arguments => do
      let summary ← summaryOf visitor.trace declaration
      judge visitor summary arguments
  | named scope function arguments => do
      let program ← read
      let declaration ← orFault (program.registry.resolveFunction scope function)
      let summary ← summaryOf visitor.trace declaration
      judge visitor summary arguments

/-- The verdict of the analysis on a call. -/
theorem analyseCall_eq_judge (summary : Summary) (arguments : List Node) (program : Program)
    (memory : Memory) :
    (analyseCall summary arguments >>= fun (level, sanitizers) =>
      pure (Answer.verdict level sanitizers)) program memory =
        judge (visitor program.depth) summary arguments program memory := by
  have same : summaryCall summary arguments program =
      callDependencies (visitor program.depth).trace summary arguments program := rfl
  unfold analyseCall judge
  simp only [run_bind]
  unfold withTracer
  rw [same]
  cases callDependencies (visitor program.depth).trace summary arguments program
    { memory with tracer := Tracer.fresh [] true } <;> rfl

/-- The analysis answers with the visitor that the bound of the program admits. -/
theorem perform_eq_performWith (query : Query) (program : Program) (memory : Memory) :
    query.perform program memory = query.performWith (visitor program.depth) program memory := by
  have called : forall declaration arguments before,
      (summarizeFunction declaration >>= fun summary => analyseCall summary arguments >>=
        fun (level, sanitizers) => pure (Answer.verdict level sanitizers)) program before =
      (summaryOf (visitor program.depth).trace declaration >>= fun summary =>
        judge (visitor program.depth) summary arguments) program before := by
    intro declaration arguments before
    have summarized : summarizeFunction declaration program before =
      summaryOf (visitor program.depth).trace declaration program before := rfl
    rw [run_bind, run_bind, summarized]
    cases summaryOf (visitor program.depth).trace declaration program before with
    | ok summary after => exact analyseCall_eq_judge summary arguments program after
    | error fault after => rfl
  cases query with
  | expression node =>
      unfold perform performWith traceInPlace
      simp only [bind_assoc, pure_bind]
      rfl
  | call declaration arguments => exact called declaration arguments memory
  | named scope function arguments =>
      unfold perform performWith summarizeNamed
      simp only [bind_assoc]
      rw [run_bind, run_bind]
      show (orFault (program.registry.resolveFunction scope function) >>= _) program memory =
        (orFault (program.registry.resolveFunction scope function) >>= _) program memory
      rw [run_bind, run_bind]
      cases program.registry.resolveFunction scope function with
      | ok declaration => exact called declaration arguments memory
      | error fault => rfl

end Query

/-- The answer or the fault of a run. -/
def Ending.answer {α : Type} : Ending α -> Except Fault α
  | .ok value _ => .ok value
  | .error fault _ => .error fault

/-- Ask questions one after the other, each to at most the given depth: the answers
and the last memory. A fault ends one question and not the session. -/
def session (depth : Nat) (program : Program) :
    List Query -> Memory -> List (Except Fault Answer) × Memory
  | [], memory => ([], memory)
  | query :: rest, memory =>
      let ending : Ending Answer := query.performWith (visitor depth) program memory
      let later := session depth program rest ending.memory
      (ending.answer :: later.1, later.2)

/-- The answer to a question with nothing kept from earlier ones. -/
def alone (depth : Nat) (program : Program) (query : Query) : Except Fault Answer :=
  Ending.answer (query.performWith (visitor depth) program Memory.start)

/-- A value is settled on at every sufficient depth. -/
def Settles {α : Type} (valueAt : Nat -> α) (value : α) : Prop :=
  ∃ enough, forall depth, enough <= depth -> valueAt depth = value

/-- Whether a node declares a function, with or without a name. -/
def isFunctionLike (node : Node) : Bool :=
  match node.construct with
  | .functionDefinition | .methodDeclaration | .closure | .arrowFunction => true
  | _ => false

/-- A node of the files that declares a function. -/
def DeclaredIn (nodes : List Node) (node : Node) : Prop := node ∈ nodes ∧ isFunctionLike node = true

/-- A question asks only for functions that are declared in the files. -/
def Query.Concerns (nodes : List Node) (registry : Registry Node) : Query -> Prop
  | .expression _ => True
  | .call declaration _ => DeclaredIn nodes declaration
  | .named scope _ _ => scope < registry.scopes.size

section Rules

variable {program : Program} {declared : Node -> Prop} {memory : Memory}

/-- Answer for a declaration and some arguments. -/
def judgeDeclaration (declaration : Node) (arguments : List Node) : Visitor -> Tracing Answer :=
  enterSummary declaration "Recursive call to " (.verdict .unknown ∅) fun summary visitor => do
    let deps ← callDependencies visitor.trace summary arguments
    return .verdict deps.level deps.sanitizers

/-- A question as a uniform step of the running tracer. -/
def Query.rule (program : Program) : Query -> Visitor -> Tracing Answer
  | .expression node => fun visitor => visitor.trace node >>= fun deps => pure (.dependencies deps)
  | .call declaration arguments => judgeDeclaration declaration arguments
  | .named scope function arguments =>
      match program.registry.resolveFunction scope function with
      | .ok declaration => judgeDeclaration declaration arguments
      | .error fault => fun _ => orFault (.error fault)

/-- Judging a call of a declared function is uniform. -/
theorem judgeDeclaration_uniform {declaration : Node} (declares : declared declaration)
    (arguments : List Node) : Uniform program declared (judgeDeclaration declaration arguments) :=
  .summary declares (Uniform.isRecursionNote_append "")
    (fun body _ => Uniform.traceReturns declaration body)
    fun summary => (Uniform.callDependencies summary arguments).map _

/-- Every query is answered by a uniform rule, if the functions it names are declared. -/
theorem Query.rule_uniform (query : Query)
    (calls : forall declaration arguments, query = .call declaration arguments ->
      declared declaration)
    (names : forall scope function arguments declaration, query = .named scope function arguments ->
      program.registry.resolveFunction scope function = .ok declaration -> declared declaration) :
    Uniform program declared (query.rule program) := by
  cases query with
  | expression node => exact (Uniform.trace node).map _
  | call declaration arguments =>
      exact judgeDeclaration_uniform (calls declaration arguments rfl) arguments
  | named scope function arguments =>
      simp only [Query.rule]
      cases resolved : program.registry.resolveFunction scope function with
      | ok declaration =>
          exact judgeDeclaration_uniform (names scope function arguments declaration rfl resolved)
            arguments
      | error fault => exact .orFault _

/-- The memory in which a question is answered. -/
def Memory.asked (memory : Memory) : Memory := memory.withTracer (Tracer.fresh [] true)

/-- While no summary is being built, a question is answered by its rule with a
tracer of its own. -/
theorem Query.performWith_run (query : Query) (visitor : Visitor) (idle : memory.inProgress = []) :
    query.performWith visitor program memory =
      Ending.map (query.rule program visitor program memory.asked) fun after =>
        after.withTracer memory.tracer := by
  have called : forall declaration arguments,
      (summaryOf visitor.trace declaration >>= fun summary =>
        Query.judge visitor summary arguments) program memory =
      Ending.map (judgeDeclaration declaration arguments visitor program memory.asked) fun after =>
        after.withTracer memory.tracer := by
    intro declaration arguments
    have waiting : declaration.key ∉ memory.asked.inProgress := by
      rw [show memory.asked.inProgress = [] from idle]
      exact List.not_mem_nil
    unfold judgeDeclaration
    rw [enterSummary_idle waiting, run_bind, run_bind]
    unfold Memory.asked
    rw [summaryOf_withTracer]
    rw [← map_summaryOf_withTracer visitor.trace declaration program memory]
    cases summaryOf visitor.trace declaration program memory with
    | error fault after => rfl
    | ok summary after =>
        exact withTracer_run (Tracer.fresh [] true)
          (callDependencies visitor.trace summary arguments)
          (fun deps => Answer.verdict (Dependencies.level deps) (Dependencies.sanitizers deps))
          (after.withTracer memory.tracer)
  cases query with
  | expression node => exact withTracer_run _ (visitor.trace node) _ memory
  | call declaration arguments => exact called declaration arguments
  | named scope function arguments =>
      simp only [Query.performWith, Query.rule]
      rw [run_bind]
      show (orFault (program.registry.resolveFunction scope function) >>= _) program memory = _
      rw [run_bind]
      cases program.registry.resolveFunction scope function with
      | ok declaration => exact called declaration arguments
      | error fault => rfl

end Rules

section Sessions

variable {program : Program} {declared : Node -> Prop} {memory : Memory} {depth : Nat}
  {query : Query}

/-- A memory between two questions: no summary is being built, and those that are
kept can be trusted. -/
structure Ready (program : Program) (declared : Node -> Prop) (memory : Memory) : Prop where
  idle : memory.inProgress = []
  reliable : Reliable program declared memory.stock

/-- A new memory is ready. -/
theorem Ready.start (program : Program) (declared : Node -> Prop) :
    Ready program declared Memory.start := by
  refine ⟨rfl, ⟨?_, ?_, ?_⟩⟩
  · intro key summary found
    cases found
  · intro key summary found
    cases found
  · intro key listed
    cases listed

/-- The memory after a question is the one after its rule, with the former tracer. -/
theorem Query.memory_performWith (query : Query) (visitor : Visitor)
    (idle : memory.inProgress = []) :
    Ending.memory (query.performWith visitor program memory) =
      (Ending.memory (query.rule program visitor program memory.asked)).withTracer
        memory.tracer := by
  rw [query.performWith_run visitor idle]
  cases query.rule program visitor program memory.asked <;> rfl

/-- A query is answered by its rule from the memory at the time of asking. -/
theorem Query.answer_performWith (query : Query) (visitor : Visitor)
    (idle : memory.inProgress = []) :
    Ending.answer (query.performWith visitor program memory) =
      Ending.answer (query.rule program visitor program memory.asked) := by
  rw [query.performWith_run visitor idle]
  cases query.rule program visitor program memory.asked <;> rfl

/-- A question lets the memory grow, and leaves it ready if no call was recursive. -/
theorem Ready.performWith (calls : CallsDeclared program declared) (apart : KeyedApart declared)
    (uniform : Uniform program declared (query.rule program)) (idle : memory.inProgress = []) :
    KeepsTrust program declared memory
      (Ending.memory (query.performWith (visitor depth) program memory)) := by
  have keeps := visitor_keepsTrust calls apart depth uniform memory.asked
  rw [query.memory_performWith (visitor depth) idle]
  exact KeepsTrust.advance.tracer memory.asked _ memory.tracer memory.tracer keeps

/-- A session lets the memory grow. -/
theorem session_grown (calls : CallsDeclared program declared) (apart : KeyedApart declared)
    {queries : List Query}
    (uniform : forall query, query ∈ queries -> Uniform program declared (query.rule program))
    (idle : memory.inProgress = []) : Grown memory (session depth program queries memory).2 := by
  induction queries generalizing memory with
  | nil => exact Grown.advance.refl memory
  | cons query rest inductionHypothesis =>
      have keeps : KeepsTrust program declared memory
          (Ending.memory (query.performWith (visitor depth) program memory)) :=
        Ready.performWith calls apart (uniform query (List.mem_cons_self ..)) idle
      refine Grown.advance.trans _ _ _ keeps.grown (inductionHypothesis ?_ ?_)
      · intro other listed
        exact uniform other (List.mem_cons_of_mem _ listed)
      · exact keeps.grown.inProgress.trans idle

/-- Every question of a session is answered in a memory that is ready, if no call
of the session was recursive. -/
theorem session_answer (calls : CallsDeclared program declared) (apart : KeyedApart declared)
    {queries : List Query}
    (uniform : forall query, query ∈ queries -> Uniform program declared (query.rule program))
    (ready : Ready program declared memory) (quiet : (session depth program queries memory).2.Quiet)
    {index : Nat} (listed : queries[index]? = some query) :
    ∃ before, Ready program declared before ∧ before.Quiet ∧
      (Ending.memory (query.performWith (visitor depth) program before)).Quiet ∧
      (session depth program queries memory).1[index]? =
        some (Ending.answer (query.performWith (visitor depth) program before)) := by
  induction queries generalizing memory index with
  | nil => cases listed
  | cons first rest inductionHypothesis =>
      have keeps : KeepsTrust program declared memory
          (Ending.memory (first.performWith (visitor depth) program memory)) :=
        Ready.performWith calls apart (uniform first (List.mem_cons_self ..)) ready.idle
      have later : forall other, other ∈ rest ->
          Uniform program declared (other.rule program) := by
        intro other listed
        exact uniform other (List.mem_cons_of_mem _ listed)
      have idle := keeps.grown.inProgress.trans ready.idle
      have middle := (session_grown calls apart later idle).quiet quiet
      cases index with
      | zero =>
          rw [List.getElem?_cons_zero] at listed
          cases listed
          exact ⟨memory, ready, keeps.grown.quiet middle, middle, rfl⟩
      | succ index =>
          rw [List.getElem?_cons_succ] at listed
          exact inductionHypothesis later ⟨idle, keeps.reliable middle ready.reliable⟩ quiet listed

end Sessions

section Independence

variable {program : Program} {declared : Node -> Prop} {memory before : Memory} {depth : Nat}
  {query : Query} {α : Type}

/-- Runs that agree are both quiet or both not, and quiet ones have one answer. -/
theorem Agrees.quiet_iff {core : Stock -> Stock -> Prop} {first second : Ending α}
    (agrees : Agrees core first second) :
    (first.memory.Quiet ↔ second.memory.Quiet) ∧
      (first.memory.Quiet -> second.answer = first.answer) := by
  cases agrees with
  | value linked => exact ⟨iff_of_true linked.firstQuiet linked.secondQuiet, fun _ => rfl⟩
  | fault firstQuiet secondQuiet => exact ⟨iff_of_true firstQuiet secondQuiet, fun _ => rfl⟩
  | recursive firstLoud secondLoud =>
      exact ⟨iff_of_false firstLoud secondLoud, fun quiet => absurd quiet firstLoud⟩

/-- What was answered did not go too deep. -/
theorem not_exhausted_of_answer {ending : Ending α} (answered : ending.answer ≠ .error .tooDeep) :
    ¬ Exhausted ending := by
  rintro ⟨after, rfl, _⟩
  exact answered rfl

/-- The memory in which questions are answered afresh. -/
def Memory.blank : Memory := Memory.start.asked

/-- A new memory tells of no recursive call. -/
theorem Memory.quiet_start : Memory.start.Quiet := by
  rintro _ ⟨⟩

/-- What is answered in a memory that is ready is answered afresh. -/
theorem Query.answered_afresh (calls : CallsDeclared program declared) (apart : KeyedApart declared)
    (uniform : Uniform program declared (query.rule program))
    (ready : Ready program declared before) (calm : before.Quiet)
    (answered : Ending.answer (query.performWith (visitor depth) program before) ≠
      .error .tooDeep) :
    ∃ enough, forall deeper, enough <= deeper ->
      let ending : Ending Answer := query.rule program (afresh deeper) program Memory.blank
      ((Ending.memory (query.performWith (visitor depth) program before)).Quiet ↔
          ending.memory.Quiet) ∧
        (ending.memory.Quiet -> ending.answer =
          Ending.answer (query.performWith (visitor depth) program before)) := by
  rw [query.answer_performWith (visitor depth) ready.idle] at answered ⊢
  rw [query.memory_performWith (visitor depth) ready.idle]
  obtain ⟨enough, agrees⟩ := visitor_followed_by_afresh calls apart depth uniform before.asked
    (not_exhausted_of_answer answered)
  refine ⟨enough, fun deeper deep => ?_⟩
  have linked : Linked (Trusts program declared) before.asked Memory.blank :=
    ⟨rfl, calm, Memory.quiet_start, ready.reliable, Within.empty _⟩
  obtain ⟨same, answers⟩ := (agrees deeper deep Memory.blank linked
    (Or.inl ready.idle.symm)).quiet_iff
  exact ⟨same, fun quiet => answers (same.2 quiet)⟩

/-- What is answered afresh is answered in every memory that is ready. -/
theorem Query.answered_when_ready (calls : CallsDeclared program declared)
    (apart : KeyedApart declared) (uniform : Uniform program declared (query.rule program))
    (ended : ¬ Exhausted (query.rule program (afresh depth) program Memory.blank)) :
    ∃ enough, forall deeper, enough <= deeper -> forall before, Ready program declared before ->
      before.Quiet ->
        let ending : Ending Answer := query.performWith (visitor deeper) program before
        let fresh : Ending Answer := query.rule program (afresh depth) program Memory.blank
        (fresh.memory.Quiet ↔ ending.memory.Quiet) ∧
          (ending.memory.Quiet -> ending.answer = fresh.answer) := by
  obtain ⟨enough, agrees⟩ :=
    afresh_followed_by_visitor calls apart depth uniform Memory.blank ended
  refine ⟨enough, fun deeper deep before ready calm => ?_⟩
  simp only [query.answer_performWith (visitor deeper) ready.idle,
    query.memory_performWith (visitor deeper) ready.idle]
  have linked : Linked (fun fresh kept => Trusts program declared kept fresh) Memory.blank
      before.asked :=
    ⟨rfl, Memory.quiet_start, calm, ready.reliable, Within.empty _⟩
  obtain ⟨same, answers⟩ := (agrees deeper deep before.asked linked (Or.inl ready.idle)).quiet_iff
  exact ⟨same, fun quiet => answers (same.2 quiet)⟩

/-- What is answered in one memory that is ready is answered in every other one. -/
theorem Query.answered_elsewhere (calls : CallsDeclared program declared)
    (apart : KeyedApart declared) (uniform : Uniform program declared (query.rule program))
    (ready : Ready program declared before) (calm : before.Quiet)
    (answered : Ending.answer (query.performWith (visitor depth) program before) ≠
      .error .tooDeep) :
    ∃ enough, forall deeper, enough <= deeper -> forall memory, Ready program declared memory ->
      memory.Quiet ->
        let ending : Ending Answer := query.performWith (visitor deeper) program memory
        ((Ending.memory (query.performWith (visitor depth) program before)).Quiet ↔
            ending.memory.Quiet) ∧
          (ending.memory.Quiet -> ending.answer =
            Ending.answer (query.performWith (visitor depth) program before)) := by
  obtain ⟨deep, agrees⟩ := query.answered_afresh calls apart uniform ready calm answered
  obtain ⟨same, answer⟩ := agrees deep (Nat.le_refl deep)
  have ended : ¬ Exhausted (query.rule program (afresh deep) program Memory.blank) := by
    rintro ⟨after, run, quiet⟩
    simp only [run] at answer
    exact answered (answer quiet).symm
  obtain ⟨enough, others⟩ := query.answered_when_ready calls apart uniform ended
  refine ⟨enough, fun deeper deepEnough memory other otherCalm => ?_⟩
  obtain ⟨otherSame, otherAnswer⟩ := others deeper deepEnough memory other otherCalm
  exact ⟨same.trans otherSame, fun quiet => (otherAnswer quiet).trans (answer (otherSame.2 quiet))⟩

/-- Two memories that are ready give one answer to a question, if neither run goes
too deep and one of them met no recursive call. -/
theorem Query.answers_eq (calls : CallsDeclared program declared) (apart : KeyedApart declared)
    (uniform : Uniform program declared (query.rule program))
    (ready : Ready program declared before) (calm : before.Quiet)
    (other : Ready program declared memory) (otherCalm : memory.Quiet)
    (quiet : (Ending.memory (query.performWith (visitor depth) program before)).Quiet)
    (answered : Ending.answer (query.performWith (visitor depth) program before) ≠
      .error .tooDeep)
    (otherAnswered : Ending.answer (query.performWith (visitor depth) program memory) ≠
      .error .tooDeep) :
    Ending.answer (query.performWith (visitor depth) program before) =
      Ending.answer (query.performWith (visitor depth) program memory) := by
  obtain ⟨enough, agrees⟩ := query.answered_afresh calls apart uniform ready calm answered
  obtain ⟨more, otherAgrees⟩ :=
    query.answered_afresh calls apart uniform other otherCalm otherAnswered
  obtain ⟨same, answer⟩ := agrees (max enough more) (Nat.le_max_left ..)
  obtain ⟨_, otherAnswer⟩ := otherAgrees (max enough more) (Nat.le_max_right ..)
  have fresh := same.1 quiet
  exact (answer fresh).symm.trans (otherAnswer fresh)

/-- A session that was answered without a recursive call at one depth meets none at
any sufficient depth. -/
theorem session_quiet_when_deeper (calls : CallsDeclared program declared)
    (apart : KeyedApart declared) {queries : List Query}
    (uniform : forall query, query ∈ queries -> Uniform program declared (query.rule program))
    (ready : Ready program declared before)
    (quiet : (session depth program queries before).2.Quiet)
    (answered : forall answer, answer ∈ (session depth program queries before).1 ->
      answer ≠ .error .tooDeep) :
    ∃ enough, forall deeper, enough <= deeper -> forall memory, Ready program declared memory ->
      memory.Quiet -> (session deeper program queries memory).2.Quiet := by
  induction queries generalizing before with
  | nil => exact ⟨0, fun _ _ memory _ calm => calm⟩
  | cons query rest inductionHypothesis =>
      have keeps : forall depth memory, Ready program declared memory ->
          KeepsTrust program declared memory
            (Ending.memory (query.performWith (visitor depth) program memory)) :=
        fun depth memory ready =>
          Ready.performWith calls apart (uniform query (List.mem_cons_self ..)) ready.idle
      have later : forall other, other ∈ rest -> Uniform program declared (other.rule program) :=
        fun other listed => uniform other (List.mem_cons_of_mem _ listed)
      have grown := (keeps depth before ready).grown
      have idle := grown.inProgress.trans ready.idle
      have middle := (session_grown calls apart later idle).quiet quiet
      obtain ⟨enough, first⟩ := query.answered_elsewhere calls apart
        (uniform query (List.mem_cons_self ..)) ready (grown.quiet middle)
        (answered _ (List.mem_cons_self ..))
      obtain ⟨more, others⟩ := inductionHypothesis later
        ⟨idle, (keeps depth before ready).reliable middle ready.reliable⟩ quiet
        fun answer listed => answered answer (List.mem_cons_of_mem _ listed)
      refine ⟨max enough more, fun deeper deep memory other calm => ?_⟩
      have after := (first deeper (Nat.le_trans (Nat.le_max_left ..) deep) memory other calm).1.1
        middle
      have kept := keeps deeper memory other
      exact others deeper (Nat.le_trans (Nat.le_max_right ..) deep) _
        ⟨kept.grown.inProgress.trans other.idle, kept.reliable after other.reliable⟩ after

end Independence

/-- The functions that a question asks for are declared. -/
theorem Query.Concerns.uniform {roots : List Node} {program : Program}
    (grounded : Grounded (nodesOf roots) program) {query : Query}
    (concerns : query.Concerns (nodesOf roots) program.registry) :
    Uniform program (DeclaredIn (nodesOf roots)) (query.rule program) := by
  refine query.rule_uniform ?_ ?_
  · rintro declaration arguments rfl
    exact concerns
  · rintro scope function arguments declaration rfl resolved
    have answer := grounded.sound.resolveFunction_answer concerns function
    rw [resolved] at answer
    exact ⟨answer.1, by simp [isFunctionLike, answer.2]⟩

/-- A call denotes a function that is declared in the files. -/
theorem Grounded.callsDeclared {nodes : List Node} {program : Program}
    (grounded : Grounded nodes program) : CallsDeclared program (DeclaredIn nodes) := by
  intro node scope function declaration located resolved
  have answer := grounded.sound.resolveFunction_answer (grounded.places node scope located) function
  rw [resolved] at answer
  exact ⟨answer.1, by simp [isFunctionLike, answer.2]⟩

/-- The answers of a session without recursive calls do not depend on the questions
before: a question settles on an answer exactly if it does so alone, and at any one
depth the answer is that of the question alone, unless one of the two runs goes too
deep. Functions are told apart by their keys. -/
theorem session_answers_eq_alone {roots : List Node} {ends : List ScopeId}
    {annotator : Annotation.Annotator}
    (annotated : roots.mapM Annotation.annotateProgram Annotation.Annotator.start =
      .ok ends annotator) (rules : RuleSet)
    (keyed : KeyedApart (DeclaredIn (nodesOf roots))) {queries : List Query}
    (concerns : forall query, query ∈ queries ->
      query.Concerns (nodesOf roots) annotator.registry) {index : Nat} {query : Query}
    (listed : queries[index]? = some query) :
    let program := Program.ofAnnotated annotator rules roots
    let run := fun depth => session depth program queries Memory.start
    ((∃ enough, forall depth, enough <= depth -> (run depth).2.Quiet) ->
      forall answer, answer ≠ .error .tooDeep ->
        (Settles (fun depth => (run depth).1[index]?) (some answer) ↔
          Settles (fun depth => alone depth program query) answer)) ∧
      forall depth, (run depth).2.Quiet ->
        (run depth).1[index]? = some (alone depth program query) ∨
          (run depth).1[index]? = some (.error .tooDeep) ∨
          alone depth program query = .error .tooDeep := by
  intro program run
  have grounded : Grounded (nodesOf roots) program := Grounded.of_annotated annotated rules
  have calls := grounded.callsDeclared
  have uniform : forall query, query ∈ queries ->
      Uniform program (DeclaredIn (nodesOf roots)) (query.rule program) := by
    intro query member
    exact (concerns query member).uniform grounded
  have asked := uniform query (List.mem_of_getElem? listed)
  have start := Ready.start program (DeclaredIn (nodesOf roots))
  -- where and how the question is answered in the session
  have answered : forall depth, (run depth).2.Quiet -> ∃ before,
      Ready program (DeclaredIn (nodesOf roots)) before ∧ before.Quiet ∧
      (Ending.memory (query.performWith (visitor depth) program before)).Quiet ∧
      (run depth).1[index]? =
        some (Ending.answer (query.performWith (visitor depth) program before)) := by
    intro depth quiet
    exact session_answer calls keyed uniform start quiet listed
  refine ⟨?_, ?_⟩
  · rintro ⟨enough, quiet⟩ answer finite
    constructor
    · rintro ⟨bound, settles⟩
      obtain ⟨before, ready, calm, after, found⟩ := answered (max enough bound)
        (quiet _ (Nat.le_max_left ..))
      have same := Option.some.inj (found.symm.trans (settles _ (Nat.le_max_right ..)))
      rw [← same] at finite
      obtain ⟨deep, others⟩ := query.answered_elsewhere calls keyed asked ready calm finite
      refine ⟨deep, fun depth deepEnough => ?_⟩
      obtain ⟨both, equal⟩ := others depth deepEnough Memory.start start Memory.quiet_start
      exact (equal (both.1 after)).trans same
    · rintro ⟨bound, settles⟩
      have same := settles bound (Nat.le_refl bound)
      rw [← same] at finite
      obtain ⟨deep, others⟩ :=
        query.answered_elsewhere calls keyed asked start Memory.quiet_start finite
      refine ⟨max enough deep, fun depth deepEnough => ?_⟩
      obtain ⟨before, ready, calm, after, found⟩ := answered depth
        (quiet depth (Nat.le_trans (Nat.le_max_left ..) deepEnough))
      obtain ⟨_, equal⟩ := others depth (Nat.le_trans (Nat.le_max_right ..) deepEnough) before
        ready calm
      exact found.trans (congrArg some ((equal after).trans same))
  · intro depth quiet
    obtain ⟨before, ready, calm, after, found⟩ := answered depth quiet
    by_cases deep : Ending.answer (query.performWith (visitor depth) program before) =
        .error .tooDeep
    · exact Or.inr (Or.inl (found.trans (congrArg some deep)))
    · by_cases aloneDeep : alone depth program query = .error .tooDeep
      · exact Or.inr (Or.inr aloneDeep)
      · refine Or.inl (found.trans (congrArg some ?_))
        exact query.answers_eq calls keyed asked ready calm start Memory.quiet_start after deep
          aloneDeep

/-- The declaration in `repeatedFile`. -/
def repeatedDeclaration : Tree :=
  .node "function_definition" true 6 35 "" [
    .node "name" true 15 16 "name" [],
    .node "formal_parameters" true 16 20 "parameters" [
      .node "simple_parameter" true 17 19 "" [.node "variable_name" true 17 19 "name" []]],
    .node "compound_statement" true 21 35 "body" [
      .node "return_statement" true 23 33 "" [.node "variable_name" true 30 32 "" []]]]

/-- The call in `repeatedFile`. -/
def repeatedCall : Tree :=
  .node "function_call_expression" true 36 44 "" [
    .node "name" true 36 37 "function" [],
    .node "arguments" true 37 44 "arguments" [
      .node "argument" true 38 43 "" [.node "variable_name" true 38 43 "" []]]]

/-- The file `<?php function f($a) { return $a; } f($_GET);`. -/
def repeatedFile : Node :=
  ⟨⟨"repeated.php", "<?php function f($a) \x7b return $a; \x7d f($_GET);".toUTF8⟩,
    .node "program" true 0 45 "" [
      repeatedDeclaration, .node "expression_statement" true 36 45 "" [repeatedCall]]⟩

/-- The verdict on a function and then the call of it: the call finds the summary
that the verdict left behind, and is answered like the call alone. -/
theorem session_answers_eq_alone_repeated :
    let declaration := repeatedFile.withTree repeatedDeclaration
    let call := repeatedFile.withTree repeatedCall
    let queries := [.call declaration call.arguments, .expression call]
    ∃ ends annotator, [repeatedFile].mapM Annotation.annotateProgram
        Annotation.Annotator.start = .ok ends annotator ∧
      let program := Program.ofAnnotated annotator escapingRules [repeatedFile]
      (forall answer, answer ≠ .error .tooDeep ->
        (Settles (fun depth => (session depth program queries Memory.start).1[1]?) (some answer) ↔
          Settles (fun depth => alone depth program (.expression call)) answer)) ∧
      (session 9 program queries Memory.start).1[1]? = some (alone 9 program (.expression call)) := by
  intro declaration call queries
  have distinct : KeysDistinct [repeatedFile] := by
    unfold KeysDistinct
    decide +kernel
  have ran : Outcome.passes (fun _ annotator =>
      let program := Program.ofAnnotated annotator escapingRules [repeatedFile]
      let ended := session 9 program queries Memory.start
      (ended.2.journal.all fun note => !isRecursionNote note) &&
        ended.1.all Except.isOk && (alone 9 program (.expression call)).isOk)
      ([repeatedFile].mapM Annotation.annotateProgram Annotation.Annotator.start) = true := by
    decide +kernel
  obtain ⟨ends, annotator, outcome, held⟩ := Outcome.exists_of_passes ran
  simp only [Bool.and_eq_true, List.all_eq_true, Bool.not_eq_true'] at held
  obtain ⟨⟨quiet, answered⟩, aloneAnswered⟩ := held
  refine ⟨ends, annotator, outcome, ?_⟩
  intro program
  have finite : forall answer : Except Fault Answer, answer.isOk = true ->
      answer ≠ .error .tooDeep := by
    rintro _ value rfl
    cases value
  have declares : DeclaredIn (nodesOf [repeatedFile]) declaration :=
    ⟨mem_nodesOf_of_mem_children (mem_nodesOf_of_root (List.mem_cons_self ..))
      (List.mem_cons_self ..), by decide +kernel⟩
  have concerns : forall query, query ∈ queries ->
      query.Concerns (nodesOf [repeatedFile]) annotator.registry := by
    intro query listed
    rcases List.mem_cons.1 listed with rfl | later
    · exact declares
    · cases List.mem_singleton.1 later
      exact trivial
  have apart : KeyedApart (DeclaredIn (nodesOf [repeatedFile])) :=
    fun first second one other same => distinct.eq_of_key_eq one.1 other.1 same
  have grounded : Grounded (nodesOf [repeatedFile]) program :=
    Grounded.of_annotated outcome escapingRules
  obtain ⟨enough, deeper⟩ := session_quiet_when_deeper grounded.callsDeclared apart
    (fun query listed => (concerns query listed).uniform grounded)
    (Ready.start program _) quiet fun answer listed => finite answer (answered answer listed)
  obtain ⟨settles, same⟩ := session_answers_eq_alone outcome escapingRules apart concerns
    (show queries[1]? = some (.expression call) from rfl)
  refine ⟨settles ⟨enough, fun depth deep => ?_⟩, ?_⟩
  · exact deeper depth deep Memory.start (Ready.start program _) Memory.quiet_start
  · rcases same 9 quiet with equal | deep | deep
    · exact equal
    · exact (finite _ (answered _ (List.mem_of_getElem? deep)) rfl).elim
    · exact (finite _ aloneAnswered deep).elim

/-- A function that returns an input, in `twinFiles`. -/
def twinInput : Tree :=
  .node "function_definition" true 6 36 "" [
    .node "name" true 15 16 "name" [],
    .node "formal_parameters" true 16 18 "parameters" [],
    .node "compound_statement" true 19 36 "body" [
      .node "return_statement" true 21 34 "" [.node "variable_name" true 28 33 "" []]]]

/-- A function that returns a number, in `twinFiles`. -/
def twinNumber : Tree :=
  .node "function_definition" true 6 36 "" [
    .node "name" true 15 16 "name" [],
    .node "formal_parameters" true 16 18 "parameters" [],
    .node "compound_statement" true 19 36 "body" [
      .node "return_statement" true 21 34 "" [.node "integer" true 28 33 "" []]]]

/-- The files `<?php function f() { return $_GET; }` and
`<?php function g() { return 12345; }`, both of one name. -/
def twinFiles : List Node := [
  ⟨⟨"twin.php", "<?php function f() \x7b return $_GET; \x7d".toUTF8⟩,
    .node "program" true 0 36 "" [twinInput]⟩,
  ⟨⟨"twin.php", "<?php function g() \x7b return 12345; \x7d".toUTF8⟩,
    .node "program" true 0 36 "" [twinNumber]⟩]

/-- The level of an answer that is a verdict. -/
def verdictLevel? : Except Fault Answer -> Option Level
  | .ok (.verdict level _) => some level
  | _ => none

/-- The functions of `twinFiles` have one key. After a question for the first the
second is answered like the first, though no call is recursive. -/
theorem session_answer_ne_alone_twin :
    Outcome.passes (fun _ annotator =>
      let program := Program.ofAnnotated annotator escapingRules twinFiles
      let queries := (twinFiles.flatMap Node.children).map fun declaration =>
        Query.call declaration []
      let ended := session program.depth program queries Memory.start
      (ended.2.journal.all fun note => !isRecursionNote note) &&
        decide (ended.1.map verdictLevel? = [some .tainted, some .tainted]) &&
        decide (queries.map (fun query => verdictLevel? (alone program.depth program query)) =
          [some .tainted, some .unassigned]))
      (twinFiles.mapM Annotation.annotateProgram Annotation.Annotator.start) = true := by
  decide +kernel

end PhpTaint.Flow
