import PhpTaint.Scopes.Declare

/-!
# Variables as they are visible at a scope

`Registry.visible` is the view of a registry that variables have: the binding
that a lookup at a scope finds, or none. It reads nothing of a scope but its
outline, that is the scope without what its tables declare. `Extends` says that
a registry keeps the outline of every scope that was open before, so a scope is
a snapshot: whatever is opened, declared or recorded later, the variables that
are visible at it stay the same.
-/

namespace PhpTaint.Scopes

variable {ν : Type}

namespace Body

/-- The same kind of scope with empty tables. -/
def outline (body : Body ν) : Body ν :=
  (body.updateSymbols fun _ => ∅).updateMembers fun _ => ∅

@[simp] theorem isBoundary_outline (body : Body ν) :
    body.outline.isBoundary = body.isBoundary := by
  cases body <;> rfl

@[simp] theorem isGlobal_outline (body : Body ν) : body.outline.isGlobal = body.isGlobal := by
  cases body <;> rfl

@[simp] theorem isNamespace_outline (body : Body ν) :
    body.outline.isNamespace = body.isNamespace := by
  cases body <;> rfl

/-- Whether a scope owns the tables of a namespace. -/
def ownsSymbols (body : Body ν) : Bool := body.symbols?.isSome

@[simp] theorem ownsSymbols_outline (body : Body ν) :
    body.outline.ownsSymbols = body.ownsSymbols := by
  cases body <;> rfl

@[simp] theorem outline_updateSymbols (change : Symbols ν -> Symbols ν) (body : Body ν) :
    (body.updateSymbols change).outline = body.outline := by
  cases body <;> rfl

@[simp] theorem outline_updateMembers (change : Members ν -> Members ν) (body : Body ν) :
    (body.updateMembers change).outline = body.outline := by
  cases body <;> rfl

end Body

/-- A scope without what its tables declare. -/
def Scope.outline (scope : Scope ν) : Scope ν := { scope with body := scope.body.outline }

/-- Scopes with one outline differ in their tables only. -/
theorem Scope.outline_eq_iff {left right : Scope ν} :
    left.outline = right.outline ↔
      left.name = right.name ∧ left.parent = right.parent ∧ left.bindings = right.bindings ∧
        left.body.outline = right.body.outline := by
  simp [Scope.outline]

/-- An ended binding is no binding. -/
def Binding.live : Option (Binding ν) -> Option (Binding ν)
  | some .unset => none
  | found => found

namespace Registry

/-- The scope at a place, without what its tables declare. -/
def outline? (registry : Registry ν) (id : ScopeId) : Option (Scope ν) :=
  (registry.scope? id).map Scope.outline

/-- The binding of a name that a lookup at a scope finds. -/
def visible (registry : Registry ν) (id : ScopeId) (name : String) : Option (Binding ν) :=
  Binding.live (searchChain name (registry.chain id))

theorem scope?_lt {registry : Registry ν} {id : ScopeId} {scope : Scope ν}
    (found : registry.scope? id = some scope) : id < registry.scopes.size :=
  (Array.getElem?_eq_some_iff.1 found).1

/-- Every number that was given out belongs to a scope. -/
theorem exists_scope {registry : Registry ν} {id : ScopeId} (bound : id < registry.scopes.size) :
    ∃ scope, registry.scope? id = some scope :=
  ⟨registry.scopes[id], Array.getElem?_eq_getElem bound⟩

/-- A lookup answers with the visible binding, and fails only where there is
none. -/
theorem resolveVariable_eq (registry : Registry ν) (id : ScopeId) (name : String) :
    registry.resolveVariable id name =
      match registry.visible id name with
      | some binding => .ok binding
      | none => .error (.unbound name (registry.nameOf id)) := by
  unfold resolveVariable visible
  cases searchChain name (registry.chain id) with
  | none => rfl
  | some binding => cases binding <;> rfl

/-- A lookup answers with the binding that is visible. -/
theorem resolveVariable_eq_ok {registry : Registry ν} {id : ScopeId} {name : String}
    {binding : Binding ν} :
    registry.resolveVariable id name = .ok binding ↔ registry.visible id name = some binding := by
  rw [resolveVariable_eq]
  cases registry.visible id name with
  | none => simp
  | some found => simp

/-- What one scope contributes to a lookup: its own binding, or else what the
scope around it contributes, unless it is a boundary. -/
theorem visible_of_scope {registry : Registry ν} {id : ScopeId} {scope : Scope ν}
    (found : registry.scope? id = some scope) (name : String) :
    registry.visible id name =
      match scope.bindings.find? name with
      | some binding => Binding.live (some binding)
      | none =>
          if scope.body.isBoundary then none
          else
            match scope.parent with
            | none => none
            | some parent => if parent < id then registry.visible parent name else none := by
  unfold visible
  rw [chain, found]
  simp only [searchChain]
  cases scope.bindings.find? name with
  | some binding => rfl
  | none =>
      cases scope.body.isBoundary with
      | true => rfl
      | false =>
          cases scope.parent with
          | none => rfl
          | some parent =>
              by_cases older : parent < id
              · simp [older]
              · simp [older, searchChain, Binding.live]

/-- Nothing is visible from a scope that was never opened. -/
theorem visible_of_scope_none {registry : Registry ν} {id : ScopeId}
    (missing : registry.scope? id = none) (name : String) : registry.visible id name = none := by
  unfold visible
  rw [chain, missing]
  rfl

/-- A lookup reads the outlines of a scope and of those around it, and nothing
else. -/
theorem visible_congr {left right : Registry ν} {id : ScopeId}
    (same : forall place, place <= id -> left.outline? place = right.outline? place)
    (name : String) : left.visible id name = right.visible id name := by
  induction id using Nat.strongRecOn with
  | ind id inductionHypothesis =>
      have here := same id (Nat.le_refl id)
      simp only [outline?] at here
      cases leftFound : left.scope? id with
      | none =>
          rw [leftFound] at here
          have rightFound : right.scope? id = none := by simpa using here.symm
          rw [visible_of_scope_none leftFound, visible_of_scope_none rightFound]
      | some leftScope =>
          rw [leftFound] at here
          obtain ⟨rightScope, rightFound, outlines⟩ := Option.map_eq_some_iff.1 here.symm
          obtain ⟨_, parents, bindings, bodies⟩ := Scope.outline_eq_iff.1 outlines
          have boundaries : rightScope.body.isBoundary = leftScope.body.isBoundary := by
            rw [← Body.isBoundary_outline rightScope.body, bodies, Body.isBoundary_outline]
          rw [visible_of_scope leftFound, visible_of_scope rightFound, bindings, parents,
            boundaries]
          cases leftScope.bindings.find? name with
          | some binding => rfl
          | none =>
              cases leftScope.parent with
              | none => rfl
              | some parent =>
                  by_cases older : parent < id
                  · have outer := inductionHypothesis parent older
                      fun place below => same place (Nat.le_trans below (Nat.le_of_lt older))
                    simp only [older, if_true, outer]
                  · simp only [older, if_false]

end Registry

/-- Every scope that was open before is still there, with the same outline. -/
def Extends (before after : Registry ν) : Prop :=
  forall id scope, before.outline? id = some scope -> after.outline? id = some scope

namespace Extends

variable {before middle after : Registry ν}

theorem refl (registry : Registry ν) : Extends registry registry := fun _ _ found => found

/-- What extends an extension extends the registry that it began with. -/
theorem trans (first : Extends before middle) (second : Extends middle after) :
    Extends before after := fun id scope found => second id scope (first id scope found)

/-- A scope keeps its kind. -/
theorem outline_eq (grown : Extends before after) {id : ScopeId}
    (bound : id < before.scopes.size) : after.outline? id = before.outline? id := by
  obtain ⟨scope, found⟩ := Registry.exists_scope bound
  have outlined : before.outline? id = some scope.outline := by
    simp [Registry.outline?, found]
  rw [grown id _ outlined, outlined]

/-- The scopes of an extended registry are still there. -/
theorem lt_size (grown : Extends before after) {id : ScopeId} (bound : id < before.scopes.size) :
    id < after.scopes.size := by
  obtain ⟨scope, found⟩ := Registry.exists_scope bound
  have outlined : before.outline? id = some scope.outline := by
    simp [Registry.outline?, found]
  obtain ⟨_, present, _⟩ := Option.map_eq_some_iff.1 (grown id _ outlined)
  exact Registry.scope?_lt present

/-- A scope is a snapshot of the variables at it. -/
theorem visible_eq (grown : Extends before after) {id : ScopeId}
    (bound : id < before.scopes.size) (name : String) :
    after.visible id name = before.visible id name :=
  Registry.visible_congr
    (fun _ below => grown.outline_eq (Nat.lt_of_le_of_lt below bound)) name

end Extends

namespace Registry

/-- The registry with one more scope. -/
def push (registry : Registry ν) (scope : Scope ν) : Registry ν :=
  { registry with scopes := registry.scopes.push scope }

/-- A new scope comes behind all others. -/
theorem scope?_push (registry : Registry ν) (scope : Scope ν) (id : ScopeId) :
    (registry.push scope).scope? id =
      if id = registry.scopes.size then some scope else registry.scope? id :=
  Array.getElem?_push

/-- A change of one scope leaves the others as they are. -/
theorem scope?_updateScope (registry : Registry ν) (id other : ScopeId)
    (change : Scope ν -> Scope ν) :
    (registry.updateScope id change).scope? other =
      if id = other then (registry.scope? other).map change else registry.scope? other :=
  Array.getElem?_modify

theorem size_push (registry : Registry ν) (scope : Scope ν) :
    (registry.push scope).scopes.size = registry.scopes.size + 1 :=
  Array.size_push ..

theorem size_updateScope (registry : Registry ν) (id : ScopeId) (change : Scope ν -> Scope ν) :
    (registry.updateScope id change).scopes.size = registry.scopes.size :=
  Array.size_modify

end Registry

namespace Extends

/-- A registry with the same scopes is an extension. -/
theorem of_scope?_eq {before after : Registry ν}
    (same : forall id, after.scope? id = before.scope? id) : Extends before after := by
  intro id scope found
  rw [Registry.outline?, same]
  exact found

/-- A new scope extends the registry. -/
theorem push (registry : Registry ν) (scope : Scope ν) :
    Extends registry (registry.push scope) := by
  intro id outlined found
  obtain ⟨present, presentFound, rfl⟩ := Option.map_eq_some_iff.1 found
  have older : id ≠ registry.scopes.size := Nat.ne_of_lt (Registry.scope?_lt presentFound)
  rw [Registry.outline?, Registry.scope?_push, if_neg older]
  exact found

/-- A change of tables leaves every outline as it was. -/
theorem updateScope (registry : Registry ν) (id : ScopeId) {change : Scope ν -> Scope ν}
    (tables : forall scope, (change scope).outline = scope.outline) :
    Extends registry (registry.updateScope id change) := by
  intro other outlined found
  obtain ⟨present, presentFound, rfl⟩ := Option.map_eq_some_iff.1 found
  rw [Registry.outline?, Registry.scope?_updateScope, presentFound]
  by_cases same : id = other
  · simp [same, tables]
  · simp [same]

end Extends

end PhpTaint.Scopes
