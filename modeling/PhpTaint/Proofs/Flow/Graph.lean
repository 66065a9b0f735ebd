import Mathlib.Logic.Relation
import PhpTaint.Proofs.Flow.Following

/-!
# The graph of definitions and uses

The sites of the graph are expressions and variables with a binding. Steps lead
from an expression to its parts, from a variable that is read to the binding
that is visible there, from a reference to the binding it stands for, and from a
construct that gives a variable its value to what it takes the value from, which
includes the former binding where a part is written. `LeafSite` says where the
graph ends and under which name.

The graph says nothing of records that are kept, of definitions that are being
followed or of definitions that have been followed.
-/

namespace PhpTaint.Flow

open Scopes Syntax Rules

/-- A place in the graph. -/
inductive Site where
  /-- An expression. -/
  | expression (node : Node)
  /-- A variable with a binding. -/
  | variable (name : String) (binding : Binding Node)

/-- The binding of a variable where it is read; the variable is not an input. -/
structure ReadsBinding (program : Program) (node : Node) (binding : Option (Binding Node)) :
    Prop where
  isVariable : node.form = .variableName
  notInput : program.rules.isInputVariable node.text = false
  visible : ∃ scope, program.registry.scopeOf program.globalScope node = .ok scope ∧
    program.registry.visible scope node.text = binding

/-- A reading shows what its scope sees. -/
theorem ReadsBinding.seen {program : Program} {node : Node} {binding : Option (Binding Node)}
    {scope : ScopeId} (reads : ReadsBinding program node binding)
    (located : program.registry.scopeOf program.globalScope node = .ok scope) :
    program.registry.visible scope node.text = binding := by
  obtain ⟨place, placed, visible⟩ := reads.visible
  rw [located] at placed
  cases placed
  exact visible

/-- The variable whose former value a definition keeps. -/
def KeepsFormer (definition start : Node) : Prop :=
  ∃ left, keptTarget? definition = some left ∧ formerVariable? left = some start

/-- A step of the graph. -/
inductive UseStep (program : Program) : Site -> Site -> Prop where
  /-- A part of an expression. -/
  | part {node part : Node} (member : part ∈ valueParts program.rules node) :
      UseStep program (.expression node) (.expression part)
  /-- The binding of a variable that is read. -/
  | read {node : Node} {binding : Binding Node} (reads : ReadsBinding program node (some binding)) :
      UseStep program (.expression node) (.variable node.text binding)
  /-- The binding that a reference stands for. -/
  | reference {name target : String} {node : Node} {owner : ScopeId} {binding : Binding Node}
      (followed : program.registry.followReference (.globalReference target node owner) =
        .ok binding) (final : isReference binding = false) :
      UseStep program (.variable name (.globalReference target node owner)) (.variable name binding)
  /-- What a definition takes its value from. -/
  | value {name : String} {definition part : Node} (found : definingPart? definition = some part) :
      UseStep program (.variable name (.referent definition)) (.expression part)
  /-- The former binding of a variable of which a part is written. -/
  | former {name : String} {definition start : Node} {binding : Binding Node}
      (keeps : KeepsFormer definition start) (reads : ReadsBinding program start (some binding)) :
      UseStep program (.variable name (.referent definition)) (.variable start.text binding)

/-- The name of an expression, other than a variable, that is a leaf. -/
def leafName? (rules : RuleSet) (node : Node) : Option String :=
  match node.form with
  | .dynamicVariable => some node.text
  | .call =>
      match calleeOf rules node with
      | .dynamic text => some text
      | .input name => some (name ++ "()")
      | .named _ => none
  | _ => none

/-- A site at which the graph ends, and the name of the leaf. -/
inductive LeafSite (program : Program) : Site -> String -> Prop where
  /-- A construct that is not followed, or a call that returns untrusted input. -/
  | expression {node : Node} {name : String} (named : leafName? program.rules node = some name) :
      LeafSite program (.expression node) name
  /-- An input variable. -/
  | input {node : Node} (isVariable : node.form = .variableName)
      (isInput : program.rules.isInputVariable node.text = true) :
      LeafSite program (.expression node) node.text
  /-- A variable without a binding. -/
  | unbound {node : Node} (reads : ReadsBinding program node none) :
      LeafSite program (.expression node) node.text
  /-- A parameter of a function. -/
  | parameter {name parameter : String} {node : Node} {index : Int} :
      LeafSite program (.variable name (.parameter parameter node index)) name
  /-- A shared variable. -/
  | superglobal {name shared : String} {owner : ScopeId} :
      LeafSite program (.variable name (.superglobal shared owner)) name
  /-- A reference that stands for no binding, or for another reference. -/
  | reference {name target : String} {node : Node} {owner : ScopeId}
      (stuck : forall binding,
        program.registry.followReference (.globalReference target node owner) = .ok binding ->
          isReference binding = true) :
      LeafSite program (.variable name (.globalReference target node owner)) name
  /-- A variable whose binding has ended. -/
  | ended {name : String} : LeafSite program (.variable name .unset) name
  /-- An input variable of which a part is written. -/
  | former {name : String} {definition start : Node} (keeps : KeepsFormer definition start)
      (isInput : program.rules.isInputVariable start.text = true) :
      LeafSite program (.variable name (.referent definition)) start.text

/-- The nodes whose scope is asked for at a site. -/
inductive AsksScope (program : Program) : Site -> Node -> Prop where
  /-- A variable that is read. -/
  | read {node : Node} (isVariable : node.form = .variableName) :
      AsksScope program (.expression node) node
  /-- The variable whose former value is kept. -/
  | former {name : String} {definition start : Node} (keeps : KeepsFormer definition start) :
      AsksScope program (.variable name (.referent definition)) start

/-- What can be reached from an expression. -/
def Reaches (program : Program) (root : Node) (site : Site) : Prop :=
  Relation.ReflTransGen (UseStep program) (.expression root) site

/-- The leaves that can be reached from an expression. -/
def ReachesLeaf (program : Program) (root : Node) (name : String) : Prop :=
  ∃ site, Reaches program root site ∧ LeafSite program site name

variable {program : Program} {root node : Node} {site : Site} {name : String}
  {binding : Binding Node}

theorem Reaches.step {next : Site} (reaches : Reaches program root site)
    (step : UseStep program site next) : Reaches program root next :=
  Relation.ReflTransGen.tail reaches step

/-- A variable leads to the binding that is followed for its own. -/
theorem eq_or_useStep_followedBinding (program : Program) (name : String)
    (binding : Binding Node) :
    followedBinding program.registry binding = binding ∨
      UseStep program (.variable name binding)
        (.variable name (followedBinding program.registry binding)) := by
  refine (followedBinding_cases program.registry binding).imp_right ?_
  rintro ⟨followed, final⟩
  cases binding with
  | globalReference target node owner => exact .reference followed final
  | referent | parameter | superglobal | unset => cases followed

theorem Reaches.followedBinding (reaches : Reaches program root (.variable name binding)) :
    Reaches program root (.variable name (followedBinding program.registry binding)) := by
  rcases eq_or_useStep_followedBinding program name binding with same | step
  · rw [same]
    exact reaches
  · exact reaches.step step

/-- A variable is a leaf under its own name if its binding is followed to no
definition. -/
theorem leafSite_iff_of_bindingOrigin {parameters : List String} {deps : Deps} {leaf : String}
    (settled : followedBinding program.registry binding = binding)
    (origin : bindingOrigin parameters name binding = .leaf deps) :
    LeafSite program (.variable name binding) leaf ↔ leaf = name := by
  constructor
  · intro isLeaf
    cases isLeaf with
    | former => cases origin
    | parameter | superglobal | reference | ended => rfl
  · rintro rfl
    cases binding with
    | referent node => cases origin
    | parameter parameter node index => exact .parameter
    | superglobal shared owner => exact .superglobal
    | unset => exact .ended
    | globalReference target node owner =>
        refine .reference fun resolved followed => ?_
        cases final : isReference resolved with
        | true => rfl
        | false =>
            rw [followedBinding_of_followReference followed final] at settled
            rw [settled] at final
            cases final

/-- Nothing lies behind a variable whose binding is followed to no definition. -/
theorem not_useStep_of_bindingOrigin {parameters : List String} {deps : Deps} {next : Site}
    (settled : followedBinding program.registry binding = binding)
    (origin : bindingOrigin parameters name binding = .leaf deps) :
    ¬ UseStep program (.variable name binding) next := by
  intro step
  cases step with
  | value | former => cases origin
  | reference followed final =>
      rw [followedBinding_of_followReference followed final] at settled
      rw [settled] at final
      cases final

end PhpTaint.Flow
