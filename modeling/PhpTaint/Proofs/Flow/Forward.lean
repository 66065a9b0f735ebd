import PhpTaint.Proofs.Annotation.Inert
import PhpTaint.Proofs.Flow.Parts
import PhpTaint.Proofs.Scopes.Soundness
import PhpTaint.Proofs.Syntax.Kind

/-!
# Forward evaluation

The value of an expression is a set of dependencies, and a store holds the values
of variables. A program that assigns to every variable at most once, and only
before the variable is read, is executed from the first statement to the last:
an assignment stores the value of its right side.

The values that such a program ends with solve the equations that its assignments
state, because no statement reads what is stored later (`execute_find?`).
-/

namespace PhpTaint.Flow.Forward

open Scopes Syntax Rules
open Annotation.Dictionary (isInert)

/-- The values of variables. -/
abbrev Store := Table String Deps

/-- The value of a variable: an input is untrusted, and a variable without a value
is not known. Such leaves point to the shared variable of that name, if there is
one. -/
def variableValue (rules : RuleSet) (owner : ScopeId) (store : Store) (name : String) : Deps :=
  let shared : Option (Binding Node) := (superglobals owner).find? name
  if rules.isInputVariable name then Dependencies.single name (Record.leaf name .tainted shared)
  else
    match store.find? name with
    | some deps => deps
    | none => unknownLeaf name shared

/-- The value of an expression: a variable has the value that is stored for it, any
other expression the one that follows from the values of its parts. -/
def evaluate (rules : RuleSet) (owner : ScopeId) (store : Store) (node : Node) : Deps :=
  if node.form = .variableName then variableValue rules owner store node.text
  else
    joinParts rules node
      ((valueParts rules node).attach.map fun part => evaluate rules owner store part.1)
termination_by node.tree.height
decreasing_by exact (inside_of_mem_valueParts part.2).lower

/-- A statement of a straight-line program. -/
inductive Step where
  /-- The assignment of a value to a variable. -/
  | assignment (name : String) (node value : Node)
  /-- A statement that stores nothing. -/
  | inert (node : Node)

namespace Step

/-- The step that a statement is: it stores nothing, or it is one assignment to a
variable and stores nothing on the way. -/
def ofStatement? (statement : Node) : Option Step :=
  if isInert statement then some (.inert statement)
  else if statement.kind = "expression_statement" then
    match statement.namedChildren with
    | [node] =>
        if node.kind = "assignment_expression" then
          match node.child? "left", node.child? "right" with
          | some left, some value =>
              if left.isVariable && isInert left && isInert value then
                some (.assignment left.text node value)
              else none
          | _, _ => none
        else none
    | _ => none
  else none

/-- The expression that a step evaluates. -/
def value : Step -> Node
  | .assignment _ _ value => value
  | .inert node => node

/-- The variable that a step assigns to. -/
def target? : Step -> Option String
  | .assignment name _ _ => some name
  | .inert _ => none

/-- The variables that a step reads. -/
def reads (step : Step) : List String :=
  (step.value.preorder.filter Node.isVariable).map Node.text

/-- The expressions of a step: those in the expression it evaluates, and an
assignment as a whole. -/
inductive Holds : Step -> Node -> Prop where
  /-- An expression that is evaluated. -/
  | value {step : Step} {node : Node} (beneath : node.Beneath step.value) : Holds step node
  /-- The assignment. -/
  | assignment {name : String} {node value : Node} : Holds (.assignment name node value) node

end Step

/-- A table of variables after one more step, which writes to its own variable
only. -/
def Step.write {α : Type} (content : Node -> Node -> α) (table : Table String α) :
    Step -> Table String α
  | .assignment name node value => table.insert name (content node value)
  | .inert _ => table

/-- The store after one more step. -/
def executeStep (rules : RuleSet) (owner : ScopeId) (store : Store) (step : Step) : Store :=
  step.write (fun _ value => evaluate rules owner store value) store

/-- The store after some steps. -/
def execute (rules : RuleSet) (owner : ScopeId) (steps : List Step) : Store :=
  steps.foldl (executeStep rules owner) ∅

/-- A program of assignments and statements that store nothing. Every variable is
assigned to at most once, is not an input, and is not read before. -/
structure StraightLine (rules : RuleSet) (root : Node) (steps : List Step) : Prop where
  program : root.construct = .program
  statements : root.namedChildren.map Step.ofStatement? = steps.map some
  once : (steps.filterMap Step.target?).Nodup
  trusted : forall name, name ∈ steps.filterMap Step.target? -> rules.isInputVariable name = false
  fresh : forall step, step ∈ steps -> forall name, name ∈ step.reads -> step.target? ≠ some name
  ordered : steps.Pairwise fun earlier later =>
    forall name, name ∈ earlier.reads -> later.target? ≠ some name
  functions : forall node, node ∈ nodesOf [root] -> node.construct ≠ .functionDefinition
  distinct : KeysDistinct [root]
  grammatical : Grammatical [root]

/-- The bindings of variables after one more step. -/
def bindStep (bindings : Table String (Binding Node)) (step : Step) : Table String (Binding Node) :=
  step.write (fun node _ => .referent node) bindings

/-- The bindings of variables after some steps. -/
def bindings (owner : ScopeId) (steps : List Step) : Table String (Binding Node) :=
  steps.foldl bindStep (superglobals owner)

variable {rules : RuleSet} {owner : ScopeId} {store : Store} {node : Node} {name : String}

/-- A variable has the value that the store gives it. -/
theorem evaluate_variable (isVariable : node.form = .variableName) :
    evaluate rules owner store node = variableValue rules owner store node.text := by
  rw [evaluate, if_pos isVariable]

/-- Any other construct joins the values of its parts. -/
theorem evaluate_eq_joinParts (notVariable : node.form ≠ .variableName) :
    evaluate rules owner store node =
      joinParts rules node ((valueParts rules node).map (evaluate rules owner store)) := by
  rw [evaluate, if_neg notVariable]
  exact congrArg _ List.attach_map_val

/-- The value of an expression depends on the variables in it only. -/
theorem evaluate_congr {other : Store} (same : forall inner, inner ∈ node.preorder ->
    inner.isVariable = true -> store.find? inner.text = other.find? inner.text) :
    evaluate rules owner store node = evaluate rules owner other node := by
  induction height : node.tree.height using Nat.strongRecOn generalizing node with
  | ind measure inductionHypothesis =>
      by_cases isVariable : node.form = .variableName
      · rw [evaluate_variable isVariable, evaluate_variable isVariable, variableValue,
          variableValue, same node node.self_mem_preorder (Node.isVariable_iff.2 isVariable)]
      · rw [evaluate_eq_joinParts isVariable, evaluate_eq_joinParts isVariable]
        congr 1
        refine List.map_congr_left fun part member => ?_
        have inside := inside_of_mem_valueParts member
        refine inductionHypothesis _ (height ▸ inside.lower) (fun inner below => same inner ?_) rfl
        exact (Node.Inside.of_mem_preorder below inside).mem_preorder

section Run

variable {α : Type} {content : Node -> Node -> α} {table : Table String α} {step : Step}
  {steps done rest : List Step}

/-- A step writes no name but its own. -/
theorem Step.find?_write (other : step.target? ≠ some name) :
    (step.write content table).find? name = table.find? name := by
  cases step with
  | assignment target node value =>
      exact Table.find?_insert_of_ne _ _ fun same => other (congrArg some same.symm)
  | inert node => rfl

/-- Steps keep what a table holds for the variables that they do not assign to. -/
theorem find?_foldl_write {write : Table String α -> Step -> Table String α}
    (writes : forall table step, ∃ content, write table step = step.write content table)
    (unassigned : name ∉ steps.filterMap Step.target?) :
    (steps.foldl write table).find? name = table.find? name := by
  induction steps generalizing table with
  | nil => rfl
  | cons step rest inductionHypothesis =>
      have other : step.target? ≠ some name := by
        intro same
        exact unassigned (List.mem_filterMap.2 ⟨step, List.mem_cons_self .., same⟩)
      have later : name ∉ rest.filterMap Step.target? := by
        intro listed
        obtain ⟨found, member, same⟩ := List.mem_filterMap.1 listed
        exact unassigned (List.mem_filterMap.2 ⟨found, List.mem_cons_of_mem _ member, same⟩)
      obtain ⟨content, written⟩ := writes table step
      rw [List.foldl_cons, inductionHypothesis later, written, Step.find?_write other]

/-- Executing a step writes the value of one variable. -/
theorem executeStep_writes (store : Store) (step : Step) :
    ∃ content, executeStep rules owner store step = step.write content store :=
  ⟨_, rfl⟩

/-- Binding by a step writes the binding of one variable. -/
theorem bindStep_writes (bindings : Table String (Binding Node)) (step : Step) :
    ∃ content, bindStep bindings step = step.write content bindings :=
  ⟨_, rfl⟩

/-- Steps are executed one after the other. -/
theorem execute_append (first second : List Step) :
    execute rules owner (first ++ second) =
      second.foldl (executeStep rules owner) (execute rules owner first) :=
  List.foldl_append

/-- Steps bind their variables one after the other. -/
theorem bindings_append (first second : List Step) :
    bindings owner (first ++ second) = second.foldl bindStep (bindings owner first) :=
  List.foldl_append

/-- A variable that is never assigned is bound as it was at first. -/
theorem bindings_find?_of_not_mem (unassigned : name ∉ steps.filterMap Step.target?) :
    (bindings owner steps).find? name = (superglobals owner).find? name :=
  find?_foldl_write bindStep_writes unassigned

/-- A variable that is assigned to is assigned to by one of the steps. -/
theorem exists_split_of_mem (assigned : name ∈ steps.filterMap Step.target?) :
    ∃ done node value rest, steps = done ++ .assignment name node value :: rest := by
  obtain ⟨step, member, target⟩ := List.mem_filterMap.1 assigned
  obtain ⟨done, rest, split⟩ := List.append_of_mem member
  cases step with
  | assignment other node value =>
      cases target
      exact ⟨done, node, value, rest, split⟩
  | inert node => cases target

namespace StraightLine

variable {root value : Node} (line : StraightLine rules root steps)

include line

/-- What a step reads is not assigned to by the step or by a later one. -/
theorem unassigned_of_read (split : steps = done ++ step :: rest) (read : name ∈ step.reads) :
    name ∉ (step :: rest).filterMap Step.target? := by
  intro listed
  obtain ⟨later, member, target⟩ := List.mem_filterMap.1 listed
  have present : step ∈ steps := split ▸ List.mem_append_right _ (List.mem_cons_self ..)
  have ordered := line.ordered
  rw [split, List.pairwise_append, List.pairwise_cons] at ordered
  rcases List.mem_cons.1 member with rfl | follows
  · exact line.fresh _ present name read target
  · exact ordered.2.1.1 later follows name read target

/-- No later step assigns to the variable of an assignment. -/
theorem unassigned_later (split : steps = done ++ .assignment name node value :: rest) :
    name ∉ rest.filterMap Step.target? := by
  have once := line.once
  rw [split, List.filterMap_append, List.nodup_append] at once
  have distinct : (name :: rest.filterMap Step.target?).Nodup := once.2.1
  exact (List.nodup_cons.1 distinct).1

/-- A variable that is assigned to is bound to its assignment. -/
theorem bindings_find? (split : steps = done ++ .assignment name node value :: rest) :
    (bindings owner steps).find? name = some (.referent node) := by
  rw [split, bindings_append, List.foldl_cons,
    find?_foldl_write bindStep_writes (line.unassigned_later split)]
  exact Table.find?_insert_self ..

/-- A variable that is assigned to has the value of the right side, evaluated with
the values that the program ends with. -/
theorem execute_find? (split : steps = done ++ .assignment name node value :: rest) :
    (execute rules owner steps).find? name =
      some (evaluate rules owner (execute rules owner steps) value) := by
  have stored : (execute rules owner steps).find? name =
      some (evaluate rules owner (execute rules owner done) value) := by
    rw [split, execute_append, List.foldl_cons,
      find?_foldl_write executeStep_writes (line.unassigned_later split)]
    exact Table.find?_insert_self ..
  rw [stored]
  congr 1
  refine evaluate_congr fun inner below isVariable => ?_
  have read : inner.text ∈ (Step.assignment name node value).reads :=
    List.mem_map.2 ⟨inner, List.mem_filter.2 ⟨below, isVariable⟩, rfl⟩
  rw [split, execute_append,
    find?_foldl_write executeStep_writes (line.unassigned_of_read split read)]

/-- A variable is bound to its assignment, or it is not assigned to and has no value. -/
theorem bound_or_unassigned (owner : ScopeId) (name : String) :
    (∃ done node value rest, steps = done ++ .assignment name node value :: rest ∧
      (bindings owner steps).find? name = some (.referent node)) ∨
    ((bindings owner steps).find? name = (superglobals owner).find? name ∧
      (execute rules owner steps).find? name = none) := by
  by_cases assigned : name ∈ steps.filterMap Step.target?
  · obtain ⟨done, node, value, rest, split⟩ := exists_split_of_mem assigned
    exact Or.inl ⟨done, node, value, rest, split, line.bindings_find? split⟩
  · exact Or.inr ⟨bindings_find?_of_not_mem assigned,
      find?_foldl_write executeStep_writes assigned⟩

/-- A step sees the bindings that the program ends with. -/
theorem bindings_find?_of_read (split : steps = done ++ step :: rest) (read : name ∈ step.reads) :
    (bindings owner done).find? name = (bindings owner steps).find? name := by
  rw [split, bindings_append, find?_foldl_write bindStep_writes (line.unassigned_of_read split read)]

end StraightLine

end Run

end PhpTaint.Flow.Forward
