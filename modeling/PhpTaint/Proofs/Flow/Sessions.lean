import Mathlib.Data.List.Induction
import PhpTaint.Proofs.Flow.History
import PhpTaint.Proofs.Flow.Obedience

/-!
# Requests to an analysis

An analysis is asked for dependencies, for summaries and for verdicts on calls, one
request after the other. A request is seen by a tracer: a new one, the tracer of an
earlier request as that request left it, or the one that built a summary. The `Desk`
keeps the memory of the analysis and all these tracers, also after a fault, so the
desks that are reached from `Desk.start` are the states in which an analysis can be.

What is of a lawful regime is kept by every request.
-/

namespace PhpTaint.Flow

open Scopes Syntax Rules

/-- What an analysis is asked for. -/
inductive Demand where
  /-- An answer that no tracer is given for. -/
  | query (question : Query)
  /-- What an expression depends on. -/
  | expression (node : Node)
  /-- The summary of a declaration. -/
  | summary (declaration : Node)
  /-- The summary of the function that a name denotes at a scope. -/
  | named (scope : ScopeId) (function : String)
  /-- What a call of a declared function depends on. -/
  | call (declaration : Node) (arguments : List Node)

/-- What is given on a demand. -/
inductive Reply where
  /-- An answer that no tracer is given for. -/
  | answer (given : Answer)
  /-- The dependencies of an expression or of a call. -/
  | dependencies (deps : Deps)
  /-- A summary. -/
  | summary (built : Summary)

/-- Meet a demand with the functions of the analysis. -/
def Demand.perform : Demand -> Tracing Reply
  | .query question => do return .answer (← question.perform)
  | .expression node => do return .dependencies (← trace node)
  | .summary declaration => do return .summary (← summarizeFunction declaration)
  | .named scope function => do return .summary (← summarizeNamed scope function)
  | .call declaration arguments => do
      let summary ← summarizeFunction declaration
      return .dependencies (← summaryCall summary arguments)

/-- The tracer that sees a request. -/
inductive Seat where
  /-- A tracer that has read nothing. -/
  | fresh (parameters : List String) (followsCalls : Bool)
  /-- The tracer of an earlier request. -/
  | earlier (index : Nat)
  /-- The tracer that built the summary of a declaration. -/
  | builder (declaration : Node)

/-- A demand and the tracer that sees it. -/
structure Request where
  seat : Seat
  demand : Demand

/-- An analysis between two requests. -/
structure Desk where
  memory : Memory
  /-- The tracers of the requests so far, as the requests left them. -/
  tracers : List Tracer

namespace Desk

/-- An analysis that has not been asked for anything. -/
def start : Desk := ⟨Memory.start, []⟩

/-- The tracer at a seat. A seat that nobody has taken has a new tracer. -/
def tracerAt (desk : Desk) : Seat -> Tracer
  | .fresh parameters followsCalls => Tracer.fresh parameters followsCalls
  | .earlier index => (desk.tracers[index]?).getD (Tracer.fresh [] true)
  | .builder declaration =>
      ((desk.memory.summaries.find? declaration.key).map Summary.tracer).getD
        (Tracer.fresh declaration.parameterNames true)

/-- The memory in which a request is met. -/
def before (desk : Desk) (request : Request) : Memory :=
  desk.memory.withTracer (desk.tracerAt request.seat)

/-- How a request ends. -/
def run (program : Program) (desk : Desk) (request : Request) : Ending Reply :=
  request.demand.perform program (desk.before request)

/-- The analysis after a request. -/
def after (program : Program) (desk : Desk) (request : Request) : Desk :=
  let final := (desk.run program request).memory
  ⟨final, desk.tracers ++ [final.tracer]⟩

/-- The analysis after some requests. -/
def following (program : Program) (requests : List Request) : Desk :=
  requests.foldl (after program) start

/-- Requests are served one after the other. -/
theorem following_append (program : Program) (requests : List Request) (request : Request) :
    following program (requests ++ [request]) =
      (following program requests).after program request := by
  unfold following
  rw [List.foldl_append]
  rfl

end Desk

section Regimes

variable {regime : Regime} {program : Program} {memory : Memory}

/-- A name denotes a function of the regime at a scope, or fails as the regime has
it. -/
structure Regime.Denotes (regime : Regime) (program : Program) (scope : ScopeId)
    (function : String) : Prop where
  enters : forall declaration,
    program.registry.resolveFunction scope function = .ok declaration -> regime.enters declaration
  fails : forall fault,
    program.registry.resolveFunction scope function = .error fault -> regime.fails fault

/-- A question asks for what is of the regime. -/
def Query.Within (regime : Regime) (program : Program) : Query -> Prop
  | .expression node => regime.admits node
  | .call declaration arguments =>
      regime.enters declaration ∧ forall argument, argument ∈ arguments -> regime.admits argument
  | .named scope function arguments =>
      regime.Denotes program scope function ∧
        forall argument, argument ∈ arguments -> regime.admits argument

/-- A demand asks for what is of the regime. -/
def Demand.Within (regime : Regime) (program : Program) : Demand -> Prop
  | .query question => question.Within regime program
  | .expression node => regime.admits node
  | .summary declaration => regime.enters declaration
  | .named scope function => regime.Denotes program scope function
  | .call declaration arguments =>
      regime.enters declaration ∧ forall argument, argument ∈ arguments -> regime.admits argument

/-- An answer shows only dependencies of the regime. -/
def Answer.Of (regime : Regime) : Answer -> Prop
  | .dependencies deps => regime.yields deps
  | .verdict _ _ => True

/-- A reply is of the regime. -/
def Reply.Of (regime : Regime) : Reply -> Prop
  | .answer given => given.Of regime
  | .dependencies deps => regime.yields deps
  | .summary built => regime.Sums built

namespace Keeps

variable {α : Type} {good : α -> Prop} {invariant : Memory -> Prop} {faults : Fault -> Prop}

/-- The visitor of a program is that of its depth. -/
theorem withVisitor {step : Visitor -> Tracing α}
    (keeps : Keeps invariant faults program memory (step (visitor program.depth)) good) :
    Keeps invariant faults program memory (withVisitor step) good := keeps

/-- An answer that is passed on keeps an invariant that holds. -/
theorem orFault {result : Except Fault α} (holds : invariant memory)
    (passes : forall value, result = .ok value -> good value)
    (fails : forall fault, result = .error fault -> faults fault) :
    Keeps invariant faults program memory (orFault result) good := by
  cases result with
  | ok value => exact ⟨passes value rfl, holds, Kept.refl memory⟩
  | error fault => exact ⟨fails fault rfl, holds, Kept.refl memory⟩

/-- A step of another tracer leaves the running one as it is. -/
theorem withTracer {tracer : Tracer} {step : Tracing α} (holds : regime.Holds memory)
    (obeys : regime.Obeys program (memory.withTracer tracer) step good) :
    regime.Obeys program memory (withTracer tracer step) fun value => good value.1 := by
  unfold Regime.Obeys Keeps
  rw [Concludes.withTracer_iff]
  refine Concludes.mono obeys ?_ ?_
  · rintro value after ⟨passes, later, kept⟩
    exact ⟨passes, later.withTracer holds.informs, ⟨rfl, rfl, rfl, kept.inProgress⟩⟩
  · rintro fault after ⟨failed, later, kept⟩
    exact ⟨failed, later.withTracer holds.informs, ⟨rfl, rfl, rfl, kept.inProgress⟩⟩

end Keeps

section Lawful

variable (lawful : regime.Lawful program) (holds : regime.Holds memory)
  (quiet : memory.inProgress = [])

include lawful holds

/-- A trace of an admitted expression yields what the regime allows. -/
theorem trace_obeys {node : Node} (admitted : regime.admits node) :
    regime.Obeys program memory (trace node) regime.yields :=
  .withVisitor ((lawful.governed program.depth).trace node memory admitted holds)

/-- A call of a summary that the regime allows yields what it allows. -/
theorem summaryCall_obeys {summary : Summary} {arguments : List Node} (sums : regime.Sums summary)
    (admitted : forall argument, argument ∈ arguments -> regime.admits argument) :
    regime.Obeys program memory (summaryCall summary arguments) regime.yields :=
  .withVisitor (callDependencies_obeys lawful (lawful.governed program.depth) holds sums admitted)

/-- The analysis of a call of an allowed summary obeys the regime. -/
theorem analyseCall_obeys {summary : Summary} {arguments : List Node} (sums : regime.Sums summary)
    (admitted : forall argument, argument ∈ arguments -> regime.admits argument) :
    regime.Obeys program memory (analyseCall summary arguments) fun _ => True := by
  have called := summaryCall_obeys lawful (holds.withTracer (.fresh regime [] true)) sums admitted
  refine .bind (.withTracer holds called) fun _ _ _ later _ => .of_pure later trivial

include quiet

/-- A function that may be entered is summarized as the regime allows. -/
theorem summarizeFunction_obeys {declaration : Node} (entered : regime.enters declaration) :
    regime.Obeys program memory (summarizeFunction declaration) regime.Sums := by
  refine .withVisitor (summaryOf_obeys lawful (lawful.governed program.depth) holds entered ?_)
  rw [quiet]
  exact List.not_mem_nil

/-- A name that denotes a function that may be entered is summarized as the regime allows. -/
theorem summarizeNamed_obeys {scope : ScopeId} {function : String}
    (denotes : regime.Denotes program scope function) :
    regime.Obeys program memory (summarizeNamed scope function) regime.Sums := by
  show regime.Obeys program memory
    (orFault (program.registry.resolveFunction scope function) >>= summarizeFunction) _
  refine .bind (.orFault holds denotes.enters denotes.fails) ?_
  intro declaration after entered later kept
  exact summarizeFunction_obeys lawful later (kept.inProgress.trans quiet) entered

/-- A query within a regime is answered as the regime allows. -/
theorem Query.perform_obeys {query : Query} (within : query.Within regime program) :
    regime.Obeys program memory query.perform (Answer.Of regime) := by
  cases query with
  | expression node =>
      have traced := trace_obeys lawful (holds.withTracer (.fresh regime [] true)) within
      have placed : regime.Obeys program memory (traceInPlace node) regime.yields :=
        .bind (.withTracer holds traced) fun _ _ yielded later _ => .of_pure later yielded
      exact .bind placed fun _ _ yielded later _ => .of_pure later yielded
  | call declaration arguments =>
      refine .bind (summarizeFunction_obeys lawful holds quiet within.1) ?_
      intro summary after sums later _
      exact .bind (analyseCall_obeys lawful later sums within.2) fun _ _ _ last _ =>
        .of_pure last trivial
  | named scope function arguments =>
      refine .bind (summarizeNamed_obeys lawful holds quiet within.1) ?_
      intro summary after sums later _
      exact .bind (analyseCall_obeys lawful later sums within.2) fun _ _ _ last _ =>
        .of_pure last trivial

/-- What is asked of a lawful regime is answered of the regime. -/
theorem Demand.perform_obeys {demand : Demand} (within : demand.Within regime program) :
    regime.Obeys program memory demand.perform (Reply.Of regime) := by
  cases demand with
  | query question =>
      have asked : question.Within regime program := within
      exact .bind (question.perform_obeys lawful holds quiet asked) fun _ _ passes later _ =>
        .of_pure later passes
  | expression node =>
      have admitted : regime.admits node := within
      exact .bind (trace_obeys lawful holds admitted) fun _ _ yielded later _ =>
        .of_pure later yielded
  | summary declaration =>
      have entered : regime.enters declaration := within
      exact .bind (summarizeFunction_obeys lawful holds quiet entered) fun _ _ sums later _ =>
        .of_pure later sums
  | named scope function =>
      have denotes : regime.Denotes program scope function := within
      exact .bind (summarizeNamed_obeys lawful holds quiet denotes) fun _ _ sums later _ =>
        .of_pure later sums
  | call declaration arguments =>
      obtain ⟨entered, admitted⟩ := within
      refine .bind (summarizeFunction_obeys lawful holds quiet entered) ?_
      intro summary after sums later _
      exact .bind (summaryCall_obeys lawful later sums admitted) fun _ _ yielded last _ =>
        .of_pure last yielded

end Lawful

/-- What an analysis holds between two requests is of the regime, and no summary is
being built. -/
structure Desk.Holds (regime : Regime) (desk : Desk) : Prop where
  memory : regime.Holds desk.memory
  tracers : forall tracer, tracer ∈ desk.tracers -> regime.Informs tracer
  quiet : desk.memory.inProgress = []

namespace Desk.Holds

/-- A new desk holds nothing that a regime could forbid. -/
theorem start (regime : Regime) : Desk.start.Holds regime :=
  ⟨.start regime, nofun, rfl⟩

variable {desk : Desk} (holds : desk.Holds regime)

include holds

/-- The tracer at a seat is informed by what the regime allows. -/
theorem tracerAt (seat : Seat) : regime.Informs (desk.tracerAt seat) := by
  cases seat with
  | fresh parameters followsCalls => exact .fresh regime parameters followsCalls
  | earlier index =>
      show regime.Informs ((desk.tracers[index]?).getD (Tracer.fresh [] true))
      cases found : desk.tracers[index]? with
      | none => exact .fresh regime [] true
      | some tracer => exact holds.tracers tracer (List.mem_of_getElem? found)
  | builder declaration =>
      show regime.Informs (((desk.memory.summaries.find? declaration.key).map Summary.tracer).getD
        (Tracer.fresh declaration.parameterNames true))
      cases found : desk.memory.summaries.find? declaration.key with
      | none => exact .fresh regime _ true
      | some summary => exact (holds.memory.sums _ summary found).informs

/-- A request is met in a memory of the regime. -/
theorem before (request : Request) : regime.Holds (desk.before request) :=
  holds.memory.withTracer (holds.tracerAt request.seat)

/-- A demand within a lawful regime is met as the regime allows. -/
theorem run (lawful : regime.Lawful program) {request : Request}
    (within : request.demand.Within regime program) :
    regime.Obeys program (desk.before request) request.demand.perform (Reply.Of regime) :=
  Demand.perform_obeys lawful (holds.before request) holds.quiet within

/-- A request keeps what is of the regime. -/
theorem after (lawful : regime.Lawful program) {request : Request}
    (within : request.demand.Within regime program) : (desk.after program request).Holds regime := by
  have ended := holds.run lawful within
  have final : regime.Holds (desk.run program request).memory ∧
      (desk.run program request).memory.inProgress = [] := by
    unfold Regime.Obeys Keeps Concludes at ended
    unfold Desk.run
    cases run : request.demand.perform program (desk.before request) with
    | ok reply after | error fault after =>
        rw [run] at ended
        exact ⟨ended.2.1, ended.2.2.inProgress.trans holds.quiet⟩
  refine ⟨final.1, ?_, final.2⟩
  intro tracer listed
  rcases List.mem_append.1 listed with earlier | last
  · exact holds.tracers tracer earlier
  · cases List.mem_singleton.1 last
    exact final.1.informs

end Desk.Holds

/-- Whatever is asked of a lawful regime, the analysis stays in it. -/
theorem Desk.following_holds (lawful : regime.Lawful program) {requests : List Request}
    (within : forall request, request ∈ requests -> request.demand.Within regime program) :
    (Desk.following program requests).Holds regime := by
  induction requests using List.reverseRecOn with
  | nil => exact .start regime
  | append_singleton requests request inductionHypothesis =>
      rw [Desk.following_append]
      refine (inductionHypothesis fun other listed => ?_).after lawful ?_
      · exact within other (List.mem_append_left _ listed)
      · exact within request (List.mem_append_right _ (List.mem_singleton.2 rfl))

end Regimes

end PhpTaint.Flow
