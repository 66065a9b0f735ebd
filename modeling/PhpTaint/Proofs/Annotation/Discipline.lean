import Mathlib.Logic.Relation
import PhpTaint.Annotation.Visit
import PhpTaint.Proofs.Scopes.Building

/-!
# The discipline of the stack

A visit may replace the current scope by forks of it, and nothing else of the
stack. `keepsDiscipline` is that rule as a check on the states before and after a
visit, and `visitWatched` is a visit that makes the check after every visit of a
part, however deep, and stops with a fault where it fails. The lemmas here
compare steps of two runs that differ in their visitors: `Orderly` says that both
end alike, and how.
-/

namespace PhpTaint.Annotation

open Scopes Syntax Outcome

/-- Whether the scope at the head of a chain is a child of the next one that
binds a single variable and goes on with it otherwise. -/
def isFork {ν : Type} : List (ScopeId × Scope ν) -> Bool
  | (_, inner) :: (_, outer) :: _ =>
      inner.name == outer.name && inner.bindings.keys.length == 1 &&
        inner.body.label == outer.body.successor.label
  | _ => false

/-- Whether forks alone lead from a scope to the head of a chain. -/
def forkedFrom {ν : Type} (old : ScopeId) : List (ScopeId × Scope ν) -> Bool
  | [] => false
  | (id, scope) :: outer =>
      id == old || isFork ((id, scope) :: outer) && forkedFrom old outer

/-- Whether a construct is visited inside a scope that is left again. -/
def leavesScope : Construct -> Bool
  | .namespaceDefinition | .functionDefinition | .methodDeclaration | .closure | .arrowFunction
  | .classDeclaration => true
  | _ => false

/-- Whether a visit has kept the stack below its top, and has replaced the top by
forks of it only; a construct that leaves its scope keeps the top as well. -/
def keepsDiscipline (node : Node) (before after : Annotator) : Bool :=
  match before.stack, after.stack with
  | old :: outer, new :: rest =>
      rest == outer && forkedFrom old (after.registry.chain new) &&
        (!leavesScope node.construct || new == old)
  | _, _ => false

/-- Visit a tree, and check the discipline of every visit on the way. -/
def visitWatched : Nat -> Node -> Annotating Unit
  | 0, _ => pure ()
  | height + 1, node => do
      let before ← get
      visitNode (visitWatched height) node
      let after ← get
      if keepsDiscipline node before after then pure () else throw .noCurrentScope

/-- A run stopped because of a name, and left a rooted registry. -/
def Stopped (owner : ScopeId) (fault : Fault) (after : Annotator) : Prop :=
  fault.isMisnamed = true ∧ after.globalScope = owner ∧ Rooted owner after.registry

/-- Two steps end alike from a state: with what is said, or stopped because of a
name. -/
structure Orderly {α : Type} (owner : ScopeId) (step other : Annotating α) (before : Annotator)
    (done : α -> Annotator -> Prop) : Prop where
  same : step before = other before
  ends : Ends (other before) done (Stopped owner)

namespace Orderly

variable {α β : Type} {owner : ScopeId} {before : Annotator} {done : α -> Annotator -> Prop}

/-- Less may be said of what a step leaves. -/
theorem mono {step other : Annotating α} {weaker : α -> Annotator -> Prop}
    (orderly : Orderly owner step other before done)
    (implied : forall value after, done value after -> weaker value after) :
    Orderly owner step other before weaker :=
  ⟨orderly.same, orderly.ends.mono implied⟩

theorem pure {value : α} (holds : done value before) :
    Orderly owner (Pure.pure value) (Pure.pure value) before done :=
  ⟨rfl, holds⟩

/-- Two pairs of steps end alike one after the other. -/
theorem bind {step other : Annotating α} {next following : α -> Annotating β}
    {last : β -> Annotator -> Prop} (first : Orderly owner step other before done)
    (rest : forall value middle, done value middle ->
      Orderly owner (next value) (following value) middle last) :
    Orderly owner (step >>= next) (other >>= following) before last := by
  refine ⟨?_, first.ends.bind fun value middle holds => (rest value middle holds).ends⟩
  show EStateM.bind step next before = EStateM.bind other following before
  have ends := first.ends
  unfold EStateM.bind
  rw [first.same]
  cases outcome : other before with
  | ok value middle =>
      rw [outcome] at ends
      exact (rest value middle ends).same
  | error fault middle => rfl

/-- A step that both runs make, and that cannot fail. -/
theorem bind_ok {step : Annotating α} {next following : α -> Annotating β}
    {last : β -> Annotator -> Prop} {value : α} {middle : Annotator}
    (first : step before = .ok value middle)
    (rest : Orderly owner (next value) (following value) middle last) :
    Orderly owner (step >>= next) (step >>= following) before last := by
  refine ⟨?_, Ends.bind_ok first rest.ends⟩
  show EStateM.bind step next before = EStateM.bind step following before
  unfold EStateM.bind
  rw [first]
  exact rest.same

/-- A step may begin by reading the state. -/
theorem bind_get {next following : Annotator -> Annotating β} {last : β -> Annotator -> Prop}
    (rest : Orderly owner (next before) (following before) before last) :
    Orderly owner (get >>= next) (get >>= following) before last :=
  bind_ok (get_eq_ok.2 ⟨rfl, rfl⟩) rest

/-- A step may begin by changing the state. -/
theorem bind_modify {change : Annotator -> Annotator} {next following : PUnit -> Annotating β}
    {last : β -> Annotator -> Prop}
    (rest : Orderly owner (next ⟨⟩) (following ⟨⟩) (change before) last) :
    Orderly owner (modify change >>= next) (modify change >>= following) before last :=
  ⟨rest.same, rest.ends⟩

/-- Steps that keep an assertion keep it all along a list. -/
theorem forM {step other : β -> Annotating Unit} {items : List β} (holds : Annotator -> Prop)
    (kept : forall item, item ∈ items -> forall state, holds state ->
      Orderly owner (step item) (other item) state fun _ after => holds after)
    (started : holds before) :
    Orderly owner (items.forM step) (items.forM other) before fun _ after => holds after := by
  induction items generalizing before with
  | nil => exact pure started
  | cons item rest inductionHypothesis =>
      refine (kept item (List.mem_cons_self ..) before started).bind fun _ middle holding => ?_
      exact inductionHypothesis (fun other member => kept other (List.mem_cons_of_mem _ member))
        holding

/-- Steps that keep an assertion on their value keep it all along a list. -/
theorem foldlM {step other : α -> β -> Annotating α} {items : List β}
    (holds : α -> Annotator -> Prop)
    (kept : forall item, item ∈ items -> forall value state, holds value state ->
      Orderly owner (step value item) (other value item) state holds)
    {value : α} (started : holds value before) :
    Orderly owner (items.foldlM step value) (items.foldlM other value) before holds := by
  induction items generalizing before value with
  | nil => exact pure started
  | cons item rest inductionHypothesis =>
      rw [List.foldlM_cons, List.foldlM_cons]
      refine (kept item (List.mem_cons_self ..) value before started).bind
        fun result middle holding => ?_
      exact inductionHypothesis (fun other member => kept other (List.mem_cons_of_mem _ member))
        holding

end Orderly

/-- A state from which a node can be visited. -/
structure Standing (owner : ScopeId) (state : Annotator) : Prop where
  owned : state.globalScope = owner
  rooted : Rooted owner state.registry
  entered : state.stack ≠ []
  opened : forall scope, scope ∈ state.stack -> scope < state.registry.scopes.size

/-- Forks alone lead from one scope to another. -/
abbrev Forked {ν : Type} (registry : Registry ν) : ScopeId -> ScopeId -> Prop :=
  Relation.ReflTransGen registry.Forks

/-- A run has gone on and stands where it stood. -/
structure Returned (owner : ScopeId) (before after : Annotator) : Prop where
  owned : after.globalScope = owner
  grows : Grows owner before.registry after.registry
  stack : after.stack = before.stack

/-- A run has gone on, and forks of the top have replaced the top. -/
structure Moved (owner : ScopeId) (before after : Annotator) : Prop where
  owned : after.globalScope = owner
  grows : Grows owner before.registry after.registry
  stack : ∃ old new outer, before.stack = old :: outer ∧ after.stack = new :: outer ∧
    Forked after.registry old new

variable {owner : ScopeId} {before middle state after : Annotator}

/-- Forks remain forks when more scopes are opened. -/
theorem forked_mono {ν : Type} {earlier later : Registry ν} (grown : Extends earlier later)
    {old new : ScopeId} (forked : Forked earlier old new) : Forked later old new :=
  Relation.ReflTransGen.mono (fun _ _ forks => grown.forks forks) _ _ forked

/-- Where a node can be visited there is a current scope. -/
theorem Standing.exists_top (standing : Standing owner state) :
    ∃ top outer, state.stack = top :: outer ∧ top < state.registry.scopes.size := by
  have opened := standing.opened
  cases stack : state.stack with
  | nil => exact (standing.entered stack).elim
  | cons top outer =>
      refine ⟨top, outer, rfl, opened top ?_⟩
      rw [stack]
      exact List.mem_cons_self ..

namespace Returned

theorem refl (standing : Standing owner state) : Returned owner state state :=
  ⟨standing.owned, Grows.refl standing.rooted, rfl⟩

/-- Where a run has returned a node can be visited again. -/
theorem standing (returned : Returned owner before after) (standing : Standing owner before) :
    Standing owner after where
  owned := returned.owned
  rooted := returned.grows.rooted
  entered := returned.stack ▸ standing.entered
  opened := fun scope member =>
    returned.grows.kept.lt_size (standing.opened scope (returned.stack ▸ member))

/-- A run that has returned has moved by no fork at all. -/
theorem moved (returned : Returned owner before after) (standing : Standing owner before) :
    Moved owner before after := by
  obtain ⟨top, outer, stack, -⟩ := standing.exists_top
  exact ⟨returned.owned, returned.grows, top, top, outer, stack, returned.stack.trans stack, .refl⟩

/-- The registry has grown further. -/
theorem registry (returned : Returned owner before state) {registry : Registry Node}
    (grows : Grows owner state.registry registry) :
    Returned owner before { state with registry := registry } :=
  ⟨returned.owned, returned.grows.trans grows, returned.stack⟩

end Returned

namespace Moved

/-- Forks of forks are forks of what they began with. -/
theorem trans (first : Moved owner before middle) (second : Moved owner middle after) :
    Moved owner before after := by
  obtain ⟨old, _, outer, oldStack, middleStack, started⟩ := first.stack
  obtain ⟨_, new, _, sameStack, newStack, went⟩ := second.stack
  obtain ⟨rfl, rfl⟩ := List.cons.inj (middleStack.symm.trans sameStack)
  refine ⟨second.owned, first.grows.trans second.grows, old, new, outer, oldStack, newStack, ?_⟩
  exact (forked_mono second.grows.kept started).trans went

/-- Where a run has moved a node can be visited again. -/
theorem standing (moved : Moved owner before after) (standing : Standing owner before) :
    Standing owner after := by
  obtain ⟨old, new, outer, oldStack, newStack, forked⟩ := moved.stack
  refine ⟨moved.owned, moved.grows.rooted, ?_, ?_⟩
  · rw [newStack]
    exact List.cons_ne_nil _ _
  · intro scope member
    have kept : forall place, place ∈ old :: outer -> place < after.registry.scopes.size := by
      intro place listed
      exact moved.grows.kept.lt_size (standing.opened place (oldStack ▸ listed))
    rw [newStack, List.mem_cons] at member
    rcases member with rfl | deeper
    · rcases Relation.ReflTransGen.cases_tail forked with same | ⟨_, -, fork⟩
      · exact kept scope (same ▸ List.mem_cons_self ..)
      · exact fork.lt_size
    · exact kept scope (List.mem_cons_of_mem _ deeper)

/-- A return after the step. -/
theorem returned (moved : Moved owner before middle) (returned : Returned owner middle after) :
    Moved owner before after := by
  obtain ⟨old, new, outer, oldStack, newStack, forked⟩ := moved.stack
  exact ⟨returned.owned, moved.grows.trans returned.grows, old, new, outer, oldStack,
    returned.stack.trans newStack, forked_mono returned.grows.kept forked⟩

/-- The step after a return. -/
theorem of_returned (returned : Returned owner before middle) (moved : Moved owner middle after) :
    Moved owner before after := by
  obtain ⟨old, new, outer, oldStack, rest⟩ := moved.stack
  exact ⟨moved.owned, returned.grows.trans moved.grows, old, new, outer,
    returned.stack ▸ oldStack, rest⟩

end Moved

/-- A chain of forks passes the check of the discipline. -/
theorem forkedFrom_chain {registry : Registry Node} {old new : ScopeId}
    (bound : old < registry.scopes.size) (forked : Forked registry old new) :
    forkedFrom old (registry.chain new) = true := by
  induction forked with
  | refl =>
      obtain ⟨scope, present⟩ := Registry.exists_scope bound
      rw [Registry.chain, present]
      simp [forkedFrom]
  | @tail middle inner _ fork inductionHypothesis =>
      obtain ⟨_, name, binding, outerFound, older, innerFound⟩ := fork
      obtain ⟨outer, outerPresent, rfl⟩ := Option.map_eq_some_iff.1 outerFound
      obtain ⟨⟨title, parent, bindings, body⟩, innerPresent, outlines⟩ :=
        Option.map_eq_some_iff.1 innerFound
      obtain ⟨rfl, rfl, rfl, bodies⟩ := Scope.mk.inj outlines
      have labels : body.label = outer.body.successor.label := by
        have outlined : body.outline.label = body.label := by cases body <;> rfl
        have same : body.outline = outer.body.outline.successor := bodies
        rw [← outlined, same, Body.successor_outline]
      obtain ⟨rest, outerChain⟩ : ∃ rest, registry.chain middle = (middle, outer) :: rest := by
        rw [Registry.chain, outerPresent]
        exact ⟨_, rfl⟩
      rw [outerChain] at inductionHypothesis
      rw [Registry.chain, innerPresent]
      simp only [older, if_true, outerChain]
      have fork : isFork ((inner, (⟨outer.outline.name, some middle,
          Table.empty.insert name binding, body⟩ : Scope Node)) :: (middle, outer) :: rest) =
            true := by
        simp only [isFork, labels, beq_self_eq_true, Bool.and_true]
        rw [Table.keys_insert]
        simp [Scope.outline, Table.empty, Table.keys]
      rw [forkedFrom, fork, inductionHypothesis]
      simp

end PhpTaint.Annotation
