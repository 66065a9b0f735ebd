import PhpTaint.Proofs.Flow.History
import PhpTaint.Proofs.Flow.Occurrences
import PhpTaint.Proofs.Flow.Returns
import PhpTaint.Proofs.Flow.Tables

/-!
# Functions that wrap a sanitizer

A function that returns nothing but calls of a sanitizer is as good as the sanitizer.
Whatever such a call is given, every leaf of its value has passed through the
sanitizer; a summary keeps that, line by line, and a call only puts arguments in the
place of parameters, which then pass through what the summary records.

A summary that is found was built at some time before, in a memory that has changed
since. `Arises` says which memories there are, and `Arises.keepsSanitized` that the
summary of a wrapper is as good in all of them as one that was just built. Summaries
are found by key, so this needs that no other function has the key of the wrapper.
-/

namespace PhpTaint.Flow

open Scopes Syntax Rules

variable {α : Type} {program : Program} {declared : Node -> Prop} {memory before after : Memory}
  {sanitizer : String} {declaration : Node} {nodes : List Node}

/-- A step concludes in what holds of all values and all faults. -/
theorem Concludes.of_forall {step : Tracing α} {good : α -> Memory -> Prop}
    {bad : Fault -> Memory -> Prop} (values : forall value after, good value after)
    (faults : forall fault after, bad fault after) : Concludes program memory step good bad := by
  unfold Concludes
  split
  · exact values _ _
  · exact faults _ _

/-! ## Sanitized values -/

/-- Every leaf of a value has passed through a sanitizer, on all flows. -/
def Sanitized (sanitizer : String) (deps : Deps) : Prop :=
  Dependencies.All (fun _ record => sanitizer ∈ record.common) deps

namespace Sanitized

theorem empty : Sanitized sanitizer ∅ := Dependencies.All.empty

/-- Merged parts are sanitized if each of them is. -/
theorem merge {parts : List Deps} (each : forall part, part ∈ parts -> Sanitized sanitizer part) :
    Sanitized sanitizer (Dependencies.merge parts) :=
  Dependencies.All.merge (fun _ _ _ one other => NameSet.mem_inter.2 ⟨one, other⟩) each

/-- Two merged parts are sanitized if both are. -/
theorem mergeTwo {first second : Deps} (one : Sanitized sanitizer first)
    (other : Sanitized sanitizer second) :
    Sanitized sanitizer (Dependencies.mergeTwo first second) :=
  merge (List.forall_mem_cons.2 ⟨one, List.forall_mem_singleton.2 other⟩)

/-- A sanitizer acts on every leaf, whatever has acted on it before. -/
theorem applyFunction {rules : RuleSet} {function : String}
    (isSanitizer : rules.isSanitizer function = true) (deps : Deps) :
    Sanitized (normalizeName function) (applyFunction rules deps function) := by
  unfold Flow.applyFunction
  simp only [isSanitizer_normalizeName, isSanitizer, if_true]
  intro leaf record found
  rw [Table.find?_mapValues] at found
  obtain ⟨given, _, rfl⟩ := Option.map_eq_some_iff.1 found
  exact NameSet.mem_insert.2 (Or.inl rfl)

/-- An argument in the place of a parameter passes through what is recorded on the
parameter, also what was called around it after a reversal. -/
theorem passedThrough {parameter : LeafRecord} (sanitized : sanitizer ∈ parameter.common)
    (argument : Deps) :
    Sanitized sanitizer (argument.mapValues fun leaf => leaf.passedThrough parameter) := by
  intro leaf record found
  rw [Table.find?_mapValues] at found
  obtain ⟨given, _, rfl⟩ := Option.map_eq_some_iff.1 found
  exact NameSet.mem_union.2 (Or.inr sanitized)

/-- What a call makes of a summary of sanitized values is sanitized, for any arguments. -/
theorem substitute {summary : Summary} (returns : Each (Sanitized sanitizer) summary.returns)
    (arguments : Table String Deps) : Sanitized sanitizer (substitute summary arguments) := by
  refine substitute_holds (fun _ => merge) ?_ ?_
  · intro line deps name record listed found _
    exact passedThrough (returns line deps listed name record found) _
  · intro line deps name record listed found _
    exact Dependencies.All.single (returns line deps listed name record found)

end Sanitized

/-! ## Calls of a sanitizer -/

/-- A call of a sanitizer by name, where the name denotes no declared function. -/
structure SanitizingCall (program : Program) (sanitizer : String) (node : Node) : Prop where
  isCall : node.form = .call
  named : ∃ callee, calleeOf program.rules node = .named callee ∧
    normalizeName callee.text = normalizeName sanitizer
  undeclared : calledFunction? program node = none

/-- Whether a node is a call of a sanitizer. -/
def isSanitizingCall (program : Program) (sanitizer : String) (node : Node) : Bool :=
  decide (node.form = .call) &&
    (match calleeOf program.rules node with
    | .named callee => normalizeName callee.text == normalizeName sanitizer
    | _ => false) &&
    (calledFunction? program node).isNone

/-- What passes the check is a sanitizing call. -/
theorem SanitizingCall.of_check {node : Node}
    (checked : isSanitizingCall program sanitizer node = true) :
    SanitizingCall program sanitizer node := by
  simp only [isSanitizingCall, Bool.and_eq_true, decide_eq_true_eq, Option.isNone_iff_eq_none]
    at checked
  obtain ⟨⟨isCall, named⟩, undeclared⟩ := checked
  refine ⟨isCall, ?_, undeclared⟩
  cases callee : calleeOf program.rules node with
  | named target =>
      rw [callee] at named
      exact ⟨target, rfl, eq_of_beq named⟩
  | dynamic text | input name =>
      rw [callee] at named
      cases named

/-- Every return statement of a function returns nothing or a call of a sanitizer. -/
def Wraps (program : Program) (sanitizer : String) (declaration : Node) : Prop :=
  forall value, value ∈ returnedValues declaration -> SanitizingCall program sanitizer value

/-- A trace of a node comes to a sanitized value, if it comes to one. -/
def TracesSanitized (program : Program) (sanitizer : String) (trace : Node -> Tracing Deps)
    (node : Node) : Prop :=
  forall memory, Concludes program memory (trace node)
    (fun deps _ => Sanitized (normalizeName sanitizer) deps) fun _ _ => True

/-- The value of a call of a sanitizer is sanitized, whatever the arguments are. -/
theorem SanitizingCall.traced (grounded : Grounded nodes program) {node : Node}
    (call : SanitizingCall program sanitizer node)
    (isSanitizer : program.rules.isSanitizer sanitizer = true) (depth : Nat) :
    TracesSanitized program sanitizer (traceWithin depth) node := by
  intro memory
  cases depth with
  | zero => exact trivial
  | succ depth =>
      obtain ⟨callee, named, same⟩ := call.named
      have notVariable : node.form ≠ .variableName := by simp [call.isCall]
      have acts : program.rules.isSanitizer (normalizeName callee.text) = true := by
        rw [same, isSanitizer_normalizeName, isSanitizer]
      rw [traceWithin]
      refine traceNode_uncalled grounded notVariable call.undeclared (fun _ _ _ => trivial) ?_
      refine Concludes.of_forall (fun results _ => ?_) fun _ _ => trivial
      simp only [joinParts, call.isCall, named]
      refine Sanitized.merge fun part member => ?_
      obtain ⟨deps, _, rfl⟩ := List.mem_map.1 member
      have sanitized := Sanitized.applyFunction acts deps
      rw [normalizeName_normalizeName] at sanitized
      rw [← same]
      exact sanitized

/-! ## Summaries of wrappers -/

section Summaries

variable {trace : Node -> Tracing Deps}
  (returned : forall value, value ∈ returnedValues declaration ->
    TracesSanitized program sanitizer trace value)

include returned

/-- If all values that are returned are sanitized, so are the values of every line, also
of one with several return statements. -/
theorem traceReturns_sanitized {body : Node} (found : declaration.child? "body" = some body) :
    Concludes program memory (traceReturns trace declaration body)
      (fun returns _ => Each (Sanitized (normalizeName sanitizer)) returns) fun _ _ => True := by
  have merges : forall first second, Sanitized (normalizeName sanitizer) first ->
      Sanitized (normalizeName sanitizer) second ->
      Sanitized (normalizeName sanitizer) (Dependencies.mergeTwo first second) :=
    fun _ _ => Sanitized.mergeTwo
  refine Concludes.traceReturns_of found
    (fun _ returns _ => Each (Sanitized (normalizeName sanitizer)) returns) Each.empty ?_
    fun _ line _ _ lines => lines.addReturn merges line Sanitized.empty
  intro done line value returns after listed lines
  refine (returned value (List.mem_map.2 ⟨_, listed, rfl⟩) after).mono ?_ fun _ _ failed => failed
  exact fun deps _ sanitized => lines.addReturn merges line sanitized

/-- The summary of a wrapper returns sanitized values only. -/
theorem buildSummary_sanitized :
    Concludes program memory (buildSummary trace declaration)
      (fun summary _ => Each (Sanitized (normalizeName sanitizer)) summary.returns)
      fun _ _ => True := by
  cases found : declaration.child? "body" with
  | none => exact (Concludes.buildSummary_without_body_iff found).2 Each.empty
  | some body => exact (Concludes.buildSummary_iff found).2 (traceReturns_sanitized returned found)

end Summaries

/-- The summary of a declaration gives sanitized values only, if one is kept. -/
def KeepsSanitized (sanitizer : String) (declaration : Node) (memory : Memory) : Prop :=
  forall summary, memory.summaries.find? declaration.key = some summary ->
    Each (Sanitized (normalizeName sanitizer)) summary.returns

/-- The summary of a wrapper gives sanitized values only, whether it is found or built. -/
theorem summaryOf_sanitized {trace : Node -> Tracing Deps}
    (returned : forall value, value ∈ returnedValues declaration ->
      TracesSanitized program sanitizer trace value)
    (keeps : KeepsSanitized sanitizer declaration memory) :
    Concludes program memory (summaryOf trace declaration)
      (fun summary _ => Each (Sanitized (normalizeName sanitizer)) summary.returns)
      fun _ _ => True := by
  refine Concludes.summaryOf_iff.2 ?_
  cases found : memory.summaries.find? declaration.key with
  | some summary => exact keeps summary found
  | none => exact buildSummary_sanitized returned

/-! ## Memories of an analysis -/

/-- A memory that an analysis may have, between two questions or in the midst of one.
Steps of tracing have been performed, each to some depth and however it ended. Which
tracer is running, which summaries are being built and what was noted is of no account. -/
inductive Arises (program : Program) (declared : Node -> Prop) : Memory -> Prop where
  /-- Nothing has been traced. -/
  | start : Arises program declared Memory.start
  /-- One more step of tracing. -/
  | step {α : Type} {memory : Memory} {step : Visitor -> Tracing α}
      (earlier : Arises program declared memory) (uniform : Uniform program declared step)
      (depth : Nat) : Arises program declared (Ending.memory (step (visitor depth) program memory))
  /-- The same summaries beside something else. -/
  | beside {memory other : Memory} (earlier : Arises program declared memory)
      (same : other.summaries = memory.summaries) : Arises program declared other

/-- Another tracer may be running. -/
theorem Arises.underTracer (arises : Arises program declared memory) (tracer : Tracer) :
    Arises program declared (memory.withTracer tracer) := arises.beside rfl

/-- A step with a tracer of its own. -/
theorem Arises.withTracer (arises : Arises program declared memory) (tracer : Tracer)
    {step : Visitor -> Tracing α} (uniform : Uniform program declared step) (depth : Nat) :
    Arises program declared
      (Ending.memory (Flow.withTracer tracer (step (visitor depth)) program memory)) := by
  refine ((arises.underTracer tracer).step uniform depth).beside ?_
  unfold Flow.withTracer Memory.withTracer
  cases step (visitor depth) program { memory with tracer := tracer } <;> rfl

/-- If the summary in one memory gives sanitized values only, so does that in the other. -/
structure StaysSanitized (sanitizer : String) (declaration : Node) (before after : Memory) :
    Prop where
  keeps : KeepsSanitized sanitizer declaration before ->
    KeepsSanitized sanitizer declaration after

/-- A summary of sanitized values stays so along a run. -/
theorem StaysSanitized.advance : Advance (StaysSanitized sanitizer declaration) where
  refl _ := ⟨fun keeps => keeps⟩
  trans _ _ _ first second := ⟨fun keeps => second.keeps (first.keeps keeps)⟩
  tracer _ _ _ _ stays := ⟨stays.keeps⟩
  remark _ _ := ⟨fun keeps => keeps⟩

/-- Entering a summary keeps that of a wrapper, if tracing its return statements does.
The summary that is added is that of the wrapper only if the wrapper was entered. -/
theorem StaysSanitized.summaryOf {wrapper : Node} {trace : Node -> Tracing Deps}
    (advances : forall body, declaration.child? "body" = some body ->
      Advances (StaysSanitized sanitizer wrapper) program (traceReturns trace declaration body))
    (returned : declaration.key = wrapper.key -> forall value, value ∈ returnedValues declaration ->
      TracesSanitized program sanitizer trace value) :
    StaysSanitized sanitizer wrapper memory
      (Ending.memory (summaryOf trace declaration program memory)) := by
  refine ⟨fun keeps => Concludes.memory_iff.1 (Concludes.summaryOf_iff.2 ?_)⟩
  cases found : memory.summaries.find? declaration.key with
  | some summary => exact keeps
  | none =>
      have built : Concludes program memory (buildSummary trace declaration)
          (fun _ after => KeepsSanitized sanitizer wrapper after)
          fun _ after => KeepsSanitized sanitizer wrapper after := by
        cases body : declaration.child? "body" with
        | none => exact (Concludes.buildSummary_without_body_iff body).2 keeps
        | some part =>
            exact (Concludes.buildSummary_iff body).2
              (Concludes.memory_iff.2 ((advances part body (memory.enter declaration)).keeps keeps))
      by_cases same : wrapper.key = declaration.key
      · refine (built.both (buildSummary_sanitized (returned same.symm))).mono ?_
          fun _ _ ends => ends.1
        rintro summary after ⟨_, sanitized⟩ kept listed
        have inserted : (after.summaries.insert declaration.key summary).find? wrapper.key =
            some kept := listed
        rw [same, Table.find?_insert_self] at inserted
        cases inserted
        exact sanitized
      · refine built.mono ?_ fun _ _ ends => ends
        intro summary after ends kept listed
        have inserted : (after.summaries.insert declaration.key summary).find? wrapper.key =
            some kept := listed
        rw [Table.find?_insert_of_ne _ _ same] at inserted
        exact ends kept inserted

/-- A call that is followed is traced as the summary of the called function with the
arguments of the call. -/
theorem Concludes.traceCall_followed_iff {trace : Node -> Tracing Deps} {call : Node}
    {good : Deps -> Memory -> Prop} {bad : Fault -> Memory -> Prop}
    (called : calledFunction? program call = some declaration)
    (follows : memory.tracer.followsCalls = true) (idle : declaration.key ∉ memory.inProgress) :
    Concludes program memory (traceCall trace call) good bad ↔
      Concludes program memory
        (summaryOf trace declaration >>= fun summary =>
          callDependencies trace summary call.arguments) good bad := by
  obtain ⟨_, callee, scope, named, located, resolved⟩ := of_calledFunction?_eq_some called
  rw [Concludes.traceCall_iff named, if_pos follows]
  unfold followCall
  simp only [Concludes.bind_iff, Concludes.scopeOfNode_iff, located, Concludes.read_iff, resolved,
    Concludes.get_iff, List.contains_iff_mem, idle, if_false, Concludes.pure_iff]

section Runs

variable (grounded : Grounded nodes program) (calls : CallsDeclared program declared)
  (isSanitizer : program.rules.isSanitizer sanitizer = true)
  (wraps : Wraps program sanitizer declaration)
  (apart : forall other, declared other -> other.key = declaration.key -> other = declaration)

include grounded calls isSanitizer wraps apart

/-- No step of tracing spoils the summary of a wrapper. -/
theorem visitor_staysSanitized (depth : Nat) {step : Visitor -> Tracing α}
    (uniform : Uniform program declared step) :
    Advances (StaysSanitized sanitizer declaration) program (step (visitor depth)) := by
  have enters : forall depth other, declared other ->
      (forall body, other.child? "body" = some body ->
        Advances (StaysSanitized sanitizer declaration) program
          (traceReturns (visitor depth).trace other body)) ->
      forall memory, other.key ∉ memory.inProgress -> StaysSanitized sanitizer declaration memory
        (Ending.memory (summaryOf (visitor depth).trace other program memory)) := by
    intro depth other declares advances memory _
    refine .summaryOf advances fun same value listed => ?_
    obtain rfl := apart other declares same
    exact (wraps value listed).traced grounded isSanitizer depth
  induction depth generalizing α with
  | zero =>
      refine uniform.advances StaysSanitized.advance (fun node => ?_) (fun name node => ?_)
        (enters 0)
      · exact StaysSanitized.advance.refl
      · exact StaysSanitized.advance.refl
  | succ depth inductionHypothesis =>
      exact uniform.advances StaysSanitized.advance
        (fun node => inductionHypothesis (Uniform.traceNode node (calls node)))
        (fun name node => inductionHypothesis (Uniform.traceDefinition name node))
        (enters (depth + 1))

/-- In every memory of an analysis the summary of a wrapper gives sanitized values only,
if it is there. -/
theorem Arises.keepsSanitized (arises : Arises program declared memory) :
    KeepsSanitized sanitizer declaration memory := by
  induction arises with
  | start => rintro summary ⟨⟩
  | step _ uniform depth inductionHypothesis =>
      have stays := visitor_staysSanitized grounded calls isSanitizer wraps apart depth uniform
      exact (stays _).keeps inductionHypothesis
  | beside _ same inductionHypothesis =>
      intro summary found
      rw [same] at found
      exact inductionHypothesis summary found

/-- Whatever the arguments are, the value that a wrapper returns is sanitized. -/
theorem wrapper_callDependencies_sanitized (arises : Arises program declared memory) (depth : Nat)
    (arguments : List Node) :
    Concludes program memory
      (summaryOf (traceWithin depth) declaration >>= fun summary =>
        callDependencies (traceWithin depth) summary arguments)
      (fun deps _ => Sanitized (normalizeName sanitizer) deps) fun _ _ => True := by
  have returned : forall value, value ∈ returnedValues declaration ->
      TracesSanitized program sanitizer (traceWithin depth) value :=
    fun value listed => (wraps value listed).traced grounded isSanitizer depth
  have keeps := arises.keepsSanitized grounded calls isSanitizer wraps apart
  rw [Concludes.bind_iff]
  refine (summaryOf_sanitized returned keeps).mono ?_ fun _ _ failed => failed
  intro summary after returns
  unfold callDependencies
  simp only [Concludes.bind_iff, Concludes.pure_iff]
  exact Concludes.of_forall (fun bound _ => Sanitized.substitute returns bound) fun _ _ => trivial

/-- The value of a call of a wrapper is sanitized where calls are followed, unless the
call is inside the wrapper itself. -/
theorem wrapper_call_sanitized (arises : Arises program declared memory) {call : Node}
    (called : calledFunction? program call = some declaration)
    (follows : memory.tracer.followsCalls = true) (idle : declaration.key ∉ memory.inProgress)
    (depth : Nat) :
    Concludes program memory (traceWithin depth call)
      (fun deps _ => Sanitized (normalizeName sanitizer) deps) fun _ _ => True := by
  cases depth with
  | zero => exact trivial
  | succ depth =>
      rw [traceWithin]
      unfold traceNode
      rw [(of_calledFunction?_eq_some called).1]
      refine (Concludes.traceCall_followed_iff called follows idle).2 ?_
      exact wrapper_callDependencies_sanitized grounded calls isSanitizer wraps apart arises depth
        call.arguments

end Runs

end PhpTaint.Flow
