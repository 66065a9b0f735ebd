import PhpTaint.Annotation.Visit
import PhpTaint.Rules.Basic
import PhpTaint.Taint.Dependencies

/-!
# State of data-flow tracing

Tracing turns an expression into the dependencies of its value. A `Tracer` keeps
what one trace has learned: the records of the variable names it has met, the
definitions it is following at the moment, the definitions it has finished, and
what it could not resolve. A `Summary` keeps the dependencies of every return
statement of one function. Summaries are shared by all traces of an analysis.

`Program` is what tracing reads and never changes: the annotated scopes, the
rules, and a bound on how deeply flows can be nested.
-/

namespace PhpTaint.Flow

open Scopes Syntax Rules

/-- The dependencies of an expression; a leaf points to the binding it traces
back to. -/
abbrev Deps := Dependencies (Binding Node)

/-- The record of one leaf. -/
abbrev LeafRecord := Record (Binding Node)

/-- A construct that tracing does not follow. -/
structure Gap where
  kind : String
  line : Nat
  deriving DecidableEq, Repr

/-- The message of a gap. -/
def Gap.message (gap : Gap) : String :=
  "Unsupported construct " ++ gap.kind ++ " at line " ++ toString gap.line

/-- What one trace has learned. -/
structure Tracer where
  /-- The names that stand for parameters of the traced function. -/
  parameters : List String
  followsCalls : Bool
  /-- The record of every name that was read, by its first reading. -/
  records : Table String LeafRecord
  /-- The names without a binding, in the order they were met. -/
  unresolved : List String
  /-- The constructs that were not followed, in the order they were met. -/
  gaps : List Gap
  /-- The definitions that are being followed. -/
  active : List Key
  /-- The dependencies of the definitions that were followed to the end. -/
  traced : Table Key Deps

/-- A tracer that has read nothing. -/
def Tracer.fresh (parameters : List String) (followsCalls : Bool) : Tracer :=
  ⟨parameters, followsCalls, ∅, [], [], [], ∅⟩

/-- The dependencies of every return statement of a function, and what building
them has learned. -/
structure Summary where
  declaration : Node
  statements : List Node
  /-- The dependencies of the values returned on each line. -/
  returns : Table Nat Deps
  /-- The tracer that followed the return statements. -/
  tracer : Tracer

/-- The name of a function declaration, or the mark of a function value. -/
def functionName (declaration : Node) : String :=
  match declaration.child? "name" with
  | some name => name.text
  | none => "\x7bclosure\x7d"

namespace Summary

/-- The name of the summarized function. -/
def name (summary : Summary) : String := functionName summary.declaration

/-- The parameters of the summarized function. -/
def parameters (summary : Summary) : List Node := summary.declaration.parameters

/-- The names of the parameters. -/
def parameterNames (summary : Summary) : List String := summary.declaration.parameterNames

/-- The summary as messages show it. -/
def describe (summary : Summary) : String :=
  "FunctionAnalyser(" ++ Text.quoted summary.name ++ ")"

/-- The summary with the dependencies of one more return statement; those of one
line are merged. -/
def addReturn (returns : Table Nat Deps) (line : Nat) (deps : Deps) : Table Nat Deps :=
  match returns.find? line with
  | some earlier => returns.insert line (Dependencies.mergeTwo earlier deps)
  | none => returns.insert line deps

end Summary

/-- What tracing reads and never changes. -/
structure Program where
  registry : Registry Node
  globalScope : ScopeId
  rules : RuleSet
  /-- A bound on the nesting of flows. -/
  depth : Nat

/-- What tracing reads and writes. -/
structure Memory where
  tracer : Tracer
  /-- The summaries built so far, by declaration, in order of completion. -/
  summaries : Table Key Summary
  /-- The declarations whose summaries are being built. -/
  inProgress : List Key
  /-- Notes, newest first. -/
  journal : Journal

/-- A memory without summaries. -/
def Memory.start : Memory := ⟨Tracer.fresh [] false, ∅, [], []⟩

/-- A step of tracing. What was learned before a fault stays. -/
abbrev Tracing := ReaderT Program (EStateM Fault Memory)

/-- How often a construct occurs in some files. -/
def countConstructs (test : Tree -> Bool) (roots : List Node) : Nat :=
  (roots.flatMap fun root => root.tree.preorder).countP test

/-- A bound on the nesting of flows. A flow passes through a function once, in
it through a definition once, between two definitions through a default value
once, and otherwise descends in an expression. Following a definition counts as
one step beside the descent. -/
def depthBound (roots : List Node) : Nat :=
  let functions := countConstructs (fun tree => Construct.ofKind tree.kind = .functionDefinition) roots
  let definitions := countConstructs
    (fun tree =>
      match Construct.ofKind tree.kind with
      | .assignment | .iteration | .staticVariable => true
      | _ => false)
    roots
  let defaults := countConstructs (fun tree => tree.label = "default_value") roots
  let height := Tree.heightAll (roots.map Node.tree)
  (functions + 2) * (definitions + 1) * (defaults + 1) * (height + 2)

/-- The program of annotated files under some rules. -/
def Program.ofAnnotated (annotator : Annotation.Annotator) (rules : RuleSet) (roots : List Node) :
    Program :=
  ⟨annotator.registry, annotator.globalScope, rules, depthBound roots⟩

/-- The result of a lookup, or its fault. -/
def orFault {α : Type} (result : Except Fault α) : Tracing α :=
  match result with
  | .ok value => pure value
  | .error fault => throw fault

/-- Take a note. -/
def remark (text : String) : Tracing Unit :=
  modify fun memory => { memory with journal := ⟨.debug, .flow, text⟩ :: memory.journal }

/-- Change the running tracer. -/
def updateTracer (change : Tracer -> Tracer) : Tracing Unit :=
  modify fun memory => { memory with tracer := change memory.tracer }

/-- The scope in which a node stands. -/
def scopeOfNode (node : Node) : Tracing ScopeId := do
  let program ← read
  orFault (program.registry.scopeOf program.globalScope node)

/-- Note a construct that is not followed. -/
def giveUp (kind : String) (node : Node) : Tracing Unit := do
  let gap : Gap := ⟨kind, node.line⟩
  remark (gap.message ++ ", not traced")
  updateTracer fun tracer => { tracer with gaps := tracer.gaps ++ [gap] }

/-- Perform a step with another tracer and return that tracer's final state; the
running tracer is put back also after a fault. -/
def withTracer {α : Type} (tracer : Tracer) (step : Tracing α) : Tracing (α × Tracer) :=
  fun program memory =>
    match step program { memory with tracer := tracer } with
    | .ok value final => .ok (value, final.tracer) { final with tracer := memory.tracer }
    | .error fault final => .error fault { final with tracer := memory.tracer }

/-- Perform a step while a definition counts as being followed. -/
def whileActive {α : Type} (key : Key) (step : Tracing α) : Tracing α := fun program memory =>
  let release := fun (final : Memory) =>
    { final with tracer :=
        { final.tracer with active := final.tracer.active.filter fun other => other ≠ key } }
  match step program
      { memory with tracer := { memory.tracer with active := key :: memory.tracer.active } } with
  | .ok value final => .ok value (release final)
  | .error fault final => .error fault (release final)

/-- Perform a step while the summary of a declaration counts as being built. -/
def whileInProgress {α : Type} (key : Key) (step : Tracing α) : Tracing α := fun program memory =>
  let release := fun (final : Memory) =>
    { final with inProgress := final.inProgress.filter fun other => other ≠ key }
  match step program { memory with inProgress := key :: memory.inProgress } with
  | .ok value final => .ok value (release final)
  | .error fault final => .error fault (release final)

end PhpTaint.Flow
