import Mathlib.Data.List.Forall2
import PhpTaint.Proofs.Annotation.Dictionary
import PhpTaint.Proofs.Scopes.Operations

/-!
# Annotation beside its plain reading

A run of annotation mirrors the plain reading of the same files when the scopes
on its stack show the variables of the dictionaries on the other stack, and every
node is annotated with a scope that shows the dictionary it is stamped with. The
lemmas here say what the steps on the stack and the stamps do to that.
-/

namespace PhpTaint.Annotation

open Scopes Syntax Outcome Dictionary

/-- The variables visible at a scope are those of a dictionary. The scope is one
of those below the limit. -/
def Shows (registry : Registry Node) (limit : Nat) (id : ScopeId) (store : Store) : Prop :=
  id < limit ∧ forall name, registry.visible id name = store.find? name

/-- The scopes that a run keeps show the dictionaries that the plain reading
keeps, and all of them lie below the limit. -/
structure Mirrors (nodes : List Node) (owner : ScopeId) (limit : Nat) (state : Annotator)
    (reading : State) : Prop where
  owned : state.globalScope = owner
  sound : Sound nodes owner state.registry
  limit_le : limit <= state.registry.scopes.size
  stack : List.Forall₂ (Shows state.registry limit) state.stack reading.stack
  stamps : List.Forall₂
    (fun record entry => record.1 = entry.1 ∧ Shows state.registry limit record.2 entry.2)
    (state.registry.annotationsOf owner) reading.stamps

/-- Between two steps every scope counts. -/
abbrev InStep (nodes : List Node) (owner : ScopeId) (state : Annotator) (reading : State) : Prop :=
  Mirrors nodes owner state.registry.scopes.size state reading

/-- A step of annotation keeps in step with a step of the plain reading. -/
def Follows (nodes : List Node) (owner : ScopeId) (step : Annotating Unit)
    (next : State -> State) : Prop :=
  forall state reading after, InStep nodes owner state reading -> step state = .ok ⟨⟩ after ->
    InStep nodes owner after (next reading)

variable {nodes : List Node} {owner : ScopeId} {limit : Nat} {state after : Annotator}
  {reading : State}

/-- An operation on the scopes succeeds inside an annotation where it does so by itself. -/
theorem onRegistry_eq_ok {α : Type} {operation : Registering Node α} {value : α} :
    onRegistry operation state = .ok value after ↔
      ∃ registry, operation state.registry = .ok value registry ∧
        { state with registry := registry } = after := by
  unfold onRegistry
  cases operation state.registry with
  | ok answer registry =>
      constructor
      · intro ended
        cases ended
        exact ⟨registry, rfl, rfl⟩
      · rintro ⟨_, same, rfl⟩
        cases same
        rfl
  | error fault registry => simp

namespace Shows

variable {registry later : Registry Node} {id : ScopeId} {store : Store}

/-- A scope shows the same dictionary below a higher limit. -/
theorem raise (shows : Shows registry limit id store) {higher : Nat} (below : limit <= higher) :
    Shows registry higher id store :=
  ⟨Nat.lt_of_lt_of_le shows.1 below, shows.2⟩

/-- A scope below the limit keeps showing what it shows. -/
theorem keep (shows : Shows registry limit id store) {kept : Nat} (below : limit <= kept)
    (advances : Advances nodes owner kept registry later) : Shows later limit id store := by
  refine ⟨shows.1, fun name => ?_⟩
  rw [advances.visible_eq (Nat.lt_of_lt_of_le shows.1 below) name, shows.2]

/-- What a scope shows is a matter of the scopes alone. -/
theorem of_scopes_eq (shows : Shows registry limit id store)
    (same : later.scopes = registry.scopes) : Shows later limit id store := by
  refine ⟨shows.1, fun name => ?_⟩
  rw [← shows.2 name]
  refine Registry.visible_congr (fun place _ => ?_) name
  rw [Registry.outline?, Registry.outline?, Registry.scope?, Registry.scope?, same]

/-- A fresh scope shows the dictionary that it was opened with. -/
theorem of_opens {view : String -> Option (Binding Node)}
    (opens : Opens nodes owner registry later id view)
    (same : forall name, view name = store.find? name) : Shows later later.scopes.size id store :=
  ⟨opens.bound, fun name => (opens.visible name).trans (same name)⟩

/-- What is visible at a scope has not ended. -/
theorem live (shows : Shows registry limit id store) {name : String} {binding : Binding Node}
    (found : store.find? name = some binding) : Binding.live (some binding) = some binding := by
  rw [← shows.2] at found
  unfold Registry.visible at found
  revert found
  cases searchChain name (registry.chain id) with
  | none => intro found; cases found
  | some first => cases first <;> intro found <;> cases found <;> rfl

end Shows

namespace Mirrors

/-- A state mirrors a reading below a higher limit, too. -/
theorem raise (mirrors : Mirrors nodes owner limit state reading) {higher : Nat}
    (below : limit <= higher) (bound : higher <= state.registry.scopes.size) :
    Mirrors nodes owner higher state reading where
  owned := mirrors.owned
  sound := mirrors.sound
  limit_le := bound
  stack := mirrors.stack.imp fun _ _ shows => shows.raise below
  stamps := mirrors.stamps.imp fun _ _ shows => ⟨shows.1, shows.2.raise below⟩

/-- Scopes and stamps below the limit are not touched by an operation that
advances the registry. -/
theorem keep (mirrors : Mirrors nodes owner limit state reading) {registry : Registry Node}
    {kept : Nat} (below : limit <= kept)
    (advances : Advances nodes owner kept state.registry registry) :
    Mirrors nodes owner limit { state with registry := registry } reading where
  owned := mirrors.owned
  sound := advances.sound
  limit_le := Nat.le_trans mirrors.limit_le advances.size_le
  stack := mirrors.stack.imp fun _ _ shows => shows.keep below advances
  stamps := by
    rw [advances.annotations]
    exact mirrors.stamps.imp fun _ _ shows => ⟨shows.1, shows.2.keep below advances⟩

/-- A state that is in step with a reading stays so while old scopes keep what they show. -/
theorem advance (inStep : InStep nodes owner state reading) {registry : Registry Node}
    (advances : Advances nodes owner state.registry.scopes.size state.registry registry) :
    InStep nodes owner { state with registry := registry } reading :=
  (inStep.keep (Nat.le_refl _) advances).raise advances.size_le (Nat.le_refl _)

theorem remark (inStep : InStep nodes owner state reading) {text : String} {done : PUnit}
    (ended : Annotation.remark text state = .ok done after) : InStep nodes owner after reading := by
  obtain rfl := modify_eq_ok.1 ended
  exact inStep.advance ((Advances.refl inStep.sound _).write _)

/-- The current scope shows the current dictionary. -/
theorem current (mirrors : Mirrors nodes owner limit state reading) {here : ScopeId}
    (ended : currentScope state = .ok here after) :
    state = after ∧ Shows state.registry limit here reading.top := by
  obtain ⟨_, _, got, rest⟩ := bind_eq_ok.1 ended
  obtain ⟨rfl, rfl⟩ := get_eq_ok.1 got
  have stack := mirrors.stack
  revert rest stack
  cases state.stack with
  | nil =>
      intro rest
      exact (throw_eq_ok.1 rest).elim
  | cons top outer =>
      intro rest stack
      obtain ⟨rfl, rfl⟩ := pure_eq_ok.1 rest
      obtain ⟨store, rest, shows, _, readingEq⟩ := List.forall₂_cons_left_iff.1 stack
      refine ⟨rfl, ?_⟩
      rw [State.top, readingEq]
      exact shows

/-- Replacing the current scope overwrites the dictionary on top. -/
theorem replace (mirrors : Mirrors nodes owner limit state reading) {id : ScopeId} {store : Store}
    (shows : Shows state.registry limit id store) {done : PUnit}
    (ended : replaceScope id state = .ok done after) :
    Mirrors nodes owner limit after (reading.overwrite store) ∧
      after.registry = state.registry := by
  obtain ⟨_, _, got, rest⟩ := bind_eq_ok.1 ended
  obtain ⟨rfl, rfl⟩ := get_eq_ok.1 got
  cases stackEq : state.stack with
  | nil =>
      rw [stackEq] at rest
      exact (throw_eq_ok.1 rest).elim
  | cons top outer =>
      rw [stackEq] at rest
      obtain rfl := modify_eq_ok.1 rest
      have stack := mirrors.stack
      rw [stackEq] at stack
      obtain ⟨_, rest, _, others, readingEq⟩ := List.forall₂_cons_left_iff.1 stack
      refine ⟨⟨mirrors.owned, mirrors.sound, mirrors.limit_le, ?_, mirrors.stamps⟩, rfl⟩
      rw [State.overwrite, State.enter, State.leave, readingEq]
      exact .cons shows others

/-- Entering a scope enters the dictionary that it shows. -/
theorem push (mirrors : Mirrors nodes owner limit state reading) {id : ScopeId} {store : Store}
    (shows : Shows state.registry limit id store) {done : PUnit}
    (ended : pushScope id state = .ok done after) :
    Mirrors nodes owner limit after (reading.enter store) := by
  obtain rfl := modify_eq_ok.1 ended
  exact ⟨mirrors.owned, mirrors.sound, mirrors.limit_le, .cons shows mirrors.stack, mirrors.stamps⟩

/-- Leaving a scope leaves its dictionary. -/
theorem pop (mirrors : Mirrors nodes owner limit state reading) {id : ScopeId}
    (ended : popScope state = .ok id after) :
    Mirrors nodes owner limit after reading.leave ∧ after.registry = state.registry := by
  obtain ⟨_, _, got, rest⟩ := bind_eq_ok.1 ended
  obtain ⟨rfl, rfl⟩ := get_eq_ok.1 got
  cases stackEq : state.stack with
  | nil =>
      rw [stackEq] at rest
      exact (throw_eq_ok.1 rest).elim
  | cons top outer =>
      cases outer with
      | nil =>
          rw [stackEq] at rest
          exact (throw_eq_ok.1 rest).elim
      | cons next outer =>
          rw [stackEq] at rest
          obtain ⟨_, _, changed, answered⟩ := bind_eq_ok.1 rest
          obtain rfl := modify_eq_ok.1 changed
          obtain ⟨rfl, rfl⟩ := pure_eq_ok.1 answered
          have stack := mirrors.stack
          rw [stackEq] at stack
          obtain ⟨_, rest, _, others, readingEq⟩ := List.forall₂_cons_left_iff.1 stack
          refine ⟨⟨mirrors.owned, mirrors.sound, mirrors.limit_le, ?_, mirrors.stamps⟩, rfl⟩
          rw [State.leave, readingEq]
          exact others

/-- Annotating a node with a scope that shows a dictionary is stamping it with
that dictionary. -/
theorem stamp (mirrors : Mirrors nodes owner limit state reading) {node : Node} {id : ScopeId}
    {store : Store} (shows : Shows state.registry limit id store) {done : PUnit}
    (ended : Annotation.stamp node id state = .ok done after) :
    Mirrors nodes owner limit after (reading.stamp node store) ∧
      after.registry.scopes = state.registry.scopes := by
  obtain ⟨_, _, got, rest⟩ := bind_eq_ok.1 ended
  obtain ⟨rfl, rfl⟩ := get_eq_ok.1 got
  obtain ⟨registry, annotated, rfl⟩ := onRegistry_eq_ok.1 rest
  rw [mirrors.owned] at annotated
  obtain ⟨sound, same, records⟩ := mirrors.sound.annotate annotated
  refine ⟨⟨mirrors.owned, sound, ?_, ?_, ?_⟩, same⟩
  · show limit <= registry.scopes.size
    rw [same]
    exact mirrors.limit_le
  · exact mirrors.stack.imp fun _ _ shows => shows.of_scopes_eq same
  · show List.Forall₂ _ (registry.annotationsOf owner) _
    rw [records]
    exact .cons ⟨rfl, shows.of_scopes_eq same⟩
      (mirrors.stamps.imp fun _ _ shows => ⟨shows.1, shows.2.of_scopes_eq same⟩)

end Mirrors

end PhpTaint.Annotation
