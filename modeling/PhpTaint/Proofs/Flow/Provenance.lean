import PhpTaint.Proofs.Flow.Graph
import PhpTaint.Proofs.Flow.Preservation
import PhpTaint.Proofs.Flow.Returns
import PhpTaint.Proofs.Flow.Tables

/-!
# Whose leaves a summary holds

The leaves of a summary are kept under bare names, and the summary of a function
takes over the leaves of the functions that it calls. `Meets` says what can be met
from the values that a function returns, each site with the function whose tracer
meets it. A name is `Uncaptured` in a function if wherever it is met as a leaf it is
a parameter that its own function reads.

For an uncaptured name every trace keeps the following: the dependencies that the
tracer of a function finds hold the name only as a parameter which that function
reads, and nothing is known of it. So a call of that function replaces it, and the
name does not get any further.
-/

namespace PhpTaint.Flow

open Scopes Syntax Rules
open Dependencies (Gathers)

/-- What can be met from the values that a function returns, with the function whose
tracer meets it. A parameter of that function is not looked up; a call of a declared
function leads to what that function returns. -/
inductive Meets (program : Program) (nodes : List Node) (start : Node) : Node -> Site -> Prop where
  /-- A value that the function returns. -/
  | returned {value : Node} (listed : value ∈ returnedValues start) :
      Meets program nodes start start (.expression value)
  /-- A step of the graph of definitions and uses, to no parameter. -/
  | use {context : Node} {site next : Site} (earlier : Meets program nodes start context site)
      (step : UseStep program site next)
      (free : forall name binding, next = .variable name binding ->
        name ∉ context.parameterNames) : Meets program nodes start context next
  /-- An argument or a default value of a call, or a part of an expression. -/
  | flow {context node next : Node} (earlier : Meets program nodes start context (.expression node))
      (step : FlowStep program nodes node next) :
      Meets program nodes start context (.expression next)
  /-- A value that a called function returns. -/
  | body {context node target declaration value : Node}
      (earlier : Meets program nodes start context (.expression node))
      (called : calledFunction? program node = some target) (declared : declaration ∈ nodes)
      (same : declaration.key = target.key) (listed : value ∈ returnedValues declaration) :
      Meets program nodes start declaration (.expression value)

/-- The name under which the tracer of a function keeps what it meets at a site. -/
inductive NamesLeaf (program : Program) (context : Node) : Site -> String -> Prop where
  /-- A leaf of the graph of definitions and uses. -/
  | leaf {site : Site} {name : String} (isLeaf : LeafSite program site name) :
      NamesLeaf program context site name
  /-- A parameter of the function. -/
  | parameter {node : Node} (reads : node.form = .variableName)
      (listed : node.text ∈ context.parameterNames) :
      NamesLeaf program context (.expression node) node.text
  /-- A call back into a function that is being summarized. -/
  | recursion {node target callee : Node} (called : calledFunction? program node = some target)
      (named : calleeOf program.rules node = .named callee) :
      NamesLeaf program context (.expression node) (normalizeName callee.text ++ "()")

/-- A parameter that is read in the body of its function. -/
structure OwnRead (rules : RuleSet) (context : Node) (name : String) (node : Node) : Prop where
  reads : node.form = .variableName
  named : node.text = name
  listed : name ∈ context.parameterNames
  trusted : rules.isInputVariable name = false
  inBody : ∃ body, context.child? "body" = some body ∧ node ∈ body.preorder

/-- Wherever a name is met as a leaf, it is a parameter that its function reads. -/
def Uncaptured (program : Program) (nodes : List Node) (name : String) (start : Node) : Prop :=
  forall context site, Meets program nodes start context site ->
    NamesLeaf program context site name ->
      ∃ node, site = .expression node ∧ OwnRead program.rules context name node

section Meeting

variable {program : Program} {nodes : List Node} {start context node target declaration : Node}
  {name : String}

/-- What is met from a called function is met from its caller. -/
theorem Meets.of_call (earlier : Meets program nodes start context (.expression node))
    (called : calledFunction? program node = some target) (declared : declaration ∈ nodes)
    (same : declaration.key = target.key) {inner : Node} {site : Site}
    (met : Meets program nodes declaration inner site) : Meets program nodes start inner site := by
  induction met with
  | returned listed => exact .body earlier called declared same listed
  | use _ step free inductionHypothesis => exact .use inductionHypothesis step free
  | flow _ step inductionHypothesis => exact .flow inductionHypothesis step
  | body _ called declared same listed inductionHypothesis =>
      exact .body inductionHypothesis called declared same listed

/-- A name that is uncaptured in a function is uncaptured in the functions it calls. -/
theorem Uncaptured.of_call (uncaptured : Uncaptured program nodes name start)
    (earlier : Meets program nodes start context (.expression node))
    (called : calledFunction? program node = some target) (declared : declaration ∈ nodes)
    (same : declaration.key = target.key) : Uncaptured program nodes name declaration := by
  intro inner site met
  exact uncaptured inner site (.of_call earlier called declared same met)

/-- No parameter is met with a binding. -/
theorem Meets.not_mem_parameterNames {other : String} {binding : Binding Node}
    (met : Meets program nodes start context (.variable other binding)) :
    other ∉ context.parameterNames := by
  cases met with
  | use _ _ free => exact free other binding rfl

/-- An uncaptured name is no leaf at a variable with a binding. -/
theorem Uncaptured.ne_of_variable (uncaptured : Uncaptured program nodes name start)
    {other leaf : String} {binding : Binding Node}
    (met : Meets program nodes start context (.variable other binding))
    (isLeaf : LeafSite program (.variable other binding) leaf) : leaf ≠ name := by
  rintro rfl
  obtain ⟨_, same, _⟩ := uncaptured _ _ met (.leaf isLeaf)
  cases same

/-- An uncaptured name is no leaf at an expression other than a parameter. -/
theorem Uncaptured.ne_of_expression (uncaptured : Uncaptured program nodes name start)
    {leaf : String} (met : Meets program nodes start context (.expression node))
    (names : NamesLeaf program context (.expression node) leaf)
    (foreign : ¬ OwnRead program.rules context leaf node) : leaf ≠ name := by
  rintro rfl
  obtain ⟨_, same, own⟩ := uncaptured _ _ met names
  cases same
  exact foreign own

end Meeting

/-- Dependencies that the tracer of a function finds hold a name only as a parameter
that the function reads, and nothing is known of it. -/
def HoldsOwn (program : Program) (nodes : List Node) (name : String) (context : Node)
    (deps : Deps) : Prop :=
  forall record, deps.find? name = some record -> record.level = .unassigned ∧
    ∃ node, Meets program nodes context context (.expression node) ∧
      OwnRead program.rules context name node

/-- All dependencies of a table do so. -/
def EachOwn {κ : Type} [DecidableEq κ] (program : Program) (nodes : List Node) (name : String)
    (context : Node) (table : Table κ Deps) : Prop :=
  forall key deps, table.find? key = some deps -> HoldsOwn program nodes name context deps

namespace HoldsOwn

variable {program : Program} {nodes : List Node} {context : Node} {name : String} {deps : Deps}

/-- Dependencies that draw the name from such dependencies only are such
dependencies. -/
theorem of_drawn (drawn : forall record, deps.find? name = some record ->
    ∃ part flow, HoldsOwn program nodes name context part ∧ part.find? name = some flow ∧
      flow.level = record.level) : HoldsOwn program nodes name context deps := by
  intro record found
  obtain ⟨part, flow, holds, listed, level⟩ := drawn record found
  rw [← level]
  exact holds flow listed

/-- Dependencies without the name hold it in no way. -/
theorem of_not_mem (absent : name ∉ deps.keys) : HoldsOwn program nodes name context deps := by
  intro record found
  exact absurd ((Table.mem_keys_iff deps name).2 ⟨record, found⟩) absent

theorem empty : HoldsOwn program nodes name context ∅ := of_not_mem (List.not_mem_nil)

/-- A leaf of another name is no concern. -/
theorem single_of_ne {leaf : String} (other : leaf ≠ name) (record : LeafRecord) :
    HoldsOwn program nodes name context (Dependencies.single leaf record) := by
  refine of_not_mem ?_
  rw [Dependencies.keys_single, List.mem_singleton]
  exact fun same => other same.symm

/-- Merged parts hold the name only as a parameter if each of them does. -/
theorem merge {parts : List Deps}
    (each : forall part, part ∈ parts -> HoldsOwn program nodes name context part) :
    HoldsOwn program nodes name context (Dependencies.merge parts) := by
  refine of_drawn fun record found => ?_
  have gathers : Gathers True (Dependencies.merge parts) fun leaf flow =>
      ∃ part, part ∈ parts ∧ part.find? leaf = some flow :=
    Gathers.merge (List.forall₂_same.2 fun _ _ => Gathers.self)
  obtain ⟨flow, ⟨part, member, listed⟩, level⟩ := (gathers.totals name record found).attained
  exact ⟨part, flow, each part member, listed, level⟩

/-- Two merged parts hold the name only as a parameter if both of them do. -/
theorem mergeTwo {first second : Deps} (one : HoldsOwn program nodes name context first)
    (other : HoldsOwn program nodes name context second) :
    HoldsOwn program nodes name context (Dependencies.mergeTwo first second) := by
  refine merge fun part member => ?_
  rcases List.mem_cons.1 member with rfl | later
  · exact one
  · cases List.mem_singleton.1 later
    exact other

/-- A step that an argument is passed through leaves its level. -/
theorem passedThrough (holds : HoldsOwn program nodes name context deps) (step : LeafRecord) :
    HoldsOwn program nodes name context
      (deps.mapValues fun record => record.passedThrough step) := by
  refine of_drawn fun record found => ?_
  rw [Table.find?_mapValues] at found
  obtain ⟨before, listed, rfl⟩ := Option.map_eq_some_iff.1 found
  exact ⟨deps, before, holds, listed, rfl⟩

/-- An expression draws the name from its parts if it is not a leaf of that name. -/
theorem joinParts {node : Node} {results : List Deps}
    (own : forall leaf, leafName? program.rules node = some leaf -> leaf ≠ name)
    (each : forall deps, deps ∈ results -> HoldsOwn program nodes name context deps) :
    HoldsOwn program nodes name context (joinParts program.rules node results) := by
  unfold leafName? at own
  unfold Flow.joinParts
  cases form : node.form with
  | dynamicVariable =>
      rw [form] at own
      exact single_of_ne (own _ rfl) _
  | call =>
      rw [form] at own
      simp only at own ⊢
      cases callee : calleeOf program.rules node with
      | dynamic text | input label =>
          rw [callee] at own
          exact single_of_ne (own _ rfl) _
      | named target =>
          refine merge fun part member => ?_
          obtain ⟨deps, listed, rfl⟩ := List.mem_map.1 member
          rw [applyFunction_eq_mapValues]
          exact (each deps listed).passedThrough _
  | assignment => exact merge fun part member => each part (List.mem_reverse.1 member)
  | literal | variableName | operands | unary | array | container | staticProperty | methodCall
  | conditional | cast | interpolated | argument | other => exact merge each

/-- A call replaces the name where the called function reads it, so the name comes
from the arguments only. -/
theorem substitute {summary : Summary} {arguments : Table String Deps}
    (returns : EachOwn program nodes name summary.declaration summary.returns)
    (passed : EachOwn program nodes name context arguments) :
    HoldsOwn program nodes name context (substitute summary arguments) := by
  refine substitute_holds (fun _ => merge) ?_ ?_
  · intro line deps leaf record _ _ _
    cases bound : arguments.find? leaf with
    | none => exact empty
    | some given => exact (passed leaf given bound).passedThrough record
  · intro line deps leaf record listed found known
    refine single_of_ne ?_ record
    rintro rfl
    obtain ⟨unassigned, _, _, own⟩ := returns line deps listed record found
    exact known (List.contains_iff_mem.2 own.listed) unassigned

end HoldsOwn

namespace EachOwn

variable {κ : Type} [DecidableEq κ] {program : Program} {nodes : List Node} {context : Node}
  {name : String} {deps : Deps} {table : Table κ Deps}

theorem empty : EachOwn program nodes name context (∅ : Table κ Deps) := Each.empty

/-- An entry that holds the name only as a parameter may be added to a table that does. -/
theorem insert (each : EachOwn program nodes name context table) (key : κ)
    (added : HoldsOwn program nodes name context deps) :
    EachOwn program nodes name context (table.insert key deps) :=
  Each.insert each key added

/-- One more return statement. -/
theorem addReturn {returns : Table Nat Deps} (lines : EachOwn program nodes name context returns)
    (line : Nat) (added : HoldsOwn program nodes name context deps) :
    EachOwn program nodes name context (Summary.addReturn returns line deps) :=
  Each.addReturn (fun _ _ => HoldsOwn.mergeTwo) lines line added

/-- An argument is bound to the parameters that its shape says. -/
theorem bind {summary : Summary} {bound : Bound}
    (passed : EachOwn program nodes name context bound.arguments) (argument value : Node)
    (added : HoldsOwn program nodes name context deps) :
    EachOwn program nodes name context (bound.bind summary argument value deps).arguments :=
  Each.bind (fun _ _ => HoldsOwn.mergeTwo) passed argument value added

/-- An argument that holds the name only as a parameter may be bound beside others that do. -/
theorem bindHanded {arguments : Table String Deps}
    (passed : EachOwn program nodes name context arguments) (receiver : Option String)
    (added : HoldsOwn program nodes name context deps) :
    EachOwn program nodes name context (bindHanded arguments (receiver, deps)) :=
  Each.bindHanded (fun _ _ => HoldsOwn.mergeTwo) passed receiver added

end EachOwn

end PhpTaint.Flow
