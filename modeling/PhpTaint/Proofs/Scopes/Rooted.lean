import PhpTaint.Proofs.Outcome
import PhpTaint.Proofs.Scopes.Variables

/-!
# The tree of scopes

A registry is `Rooted` when its scopes form one tree: there is one global scope,
every other scope has an older parent of a kind that it can stand in, and what a
namespace lists as nested in it is a namespace. In a rooted registry every scope
has a global scope and a namespace around it, so no operation can fail because
scopes do not hang together. Opening a scope and changing the tables of one keep
a registry rooted.
-/

namespace PhpTaint.Scopes

variable {ν : Type}

/-- Whether a scope of the first kind can stand directly in one of the second. -/
structure Body.Nests {ν : Type} (inner outer : Body ν) : Prop where
  notGlobal : inner.isGlobal = false
  continued : inner.outline = .continuation -> outer.isNamespace = true
  namespaced : inner.ownsSymbols = true -> outer.ownsSymbols = true

namespace Registry

/-- The kind of the scope at a place. -/
def kind? {ν : Type} (registry : Registry ν) (id : ScopeId) : Option (Body ν) :=
  (registry.scope? id).map fun scope => scope.body.outline

/-- The kind of a scope is the outline of its body. -/
theorem kind?_of_scope {ν : Type} {registry : Registry ν} {id : ScopeId} {scope : Scope ν}
    (found : registry.scope? id = some scope) : registry.kind? id = some scope.body.outline := by
  rw [kind?, found]
  rfl

/-- What has a kind is a scope. -/
theorem exists_of_kind? {registry : Registry ν} {id : ScopeId} {kind : Body ν}
    (found : registry.kind? id = some kind) :
    ∃ scope, registry.scope? id = some scope ∧ scope.body.outline = kind :=
  Option.map_eq_some_iff.1 found

/-- The number of what has a kind was given out. -/
theorem lt_of_kind? {registry : Registry ν} {id : ScopeId} {kind : Body ν}
    (found : registry.kind? id = some kind) : id < registry.scopes.size := by
  obtain ⟨scope, present, -⟩ := exists_of_kind? found
  exact scope?_lt present

/-- The symbols of a scope are those of its body. -/
theorem symbolsOf_of_scope {registry : Registry ν} {id : ScopeId} {scope : Scope ν}
    (found : registry.scope? id = some scope) :
    registry.symbolsOf id = scope.body.symbols?.getD ∅ := by
  rw [symbolsOf, found]

/-- A new scope has the symbols of its body, and the others keep theirs. -/
theorem symbolsOf_push (registry : Registry ν) (scope : Scope ν) (id : ScopeId) :
    (registry.push scope).symbolsOf id =
      if id = registry.scopes.size then scope.body.symbols?.getD ∅ else registry.symbolsOf id := by
  unfold symbolsOf
  rw [scope?_push]
  by_cases new : id = registry.scopes.size
  · simp [new]
  · simp [new]

/-- Every scope of a registry in which one scope was changed is an old one, or
the changed one. -/
theorem scope?_updateScope_cases {registry : Registry ν} {id other : ScopeId}
    {change : Scope ν -> Scope ν} {scope : Scope ν}
    (found : (registry.updateScope id change).scope? other = some scope) :
    registry.scope? other = some scope ∨
      ∃ old, registry.scope? id = some old ∧ other = id ∧ scope = change old := by
  rw [scope?_updateScope] at found
  split at found
  · rename_i same
    subst same
    obtain ⟨old, oldFound, rfl⟩ := Option.map_eq_some_iff.1 found
    exact Or.inr ⟨old, oldFound, rfl, rfl⟩
  · exact Or.inl found

end Registry

/-- A scope stands in an older scope of a kind that admits it. -/
def Scope.Enclosed {ν : Type} (registry : Registry ν) (id : ScopeId) (scope : Scope ν) : Prop :=
  ∃ parent outer, scope.parent = some parent ∧ parent < id ∧
    registry.kind? parent = some outer ∧ scope.body.Nests outer

/-- Every scope that was open before is still there, and of the same kind. -/
def KeepsKinds {ν : Type} (before after : Registry ν) : Prop :=
  forall id kind, before.kind? id = some kind -> after.kind? id = some kind

/-- An extension keeps the kinds of the scopes. -/
theorem Extends.keepsKinds {before after : Registry ν} (grown : Extends before after) :
    KeepsKinds before after := by
  intro id kind found
  obtain ⟨scope, present, rfl⟩ := Registry.exists_of_kind? found
  have outlined : before.outline? id = some scope.outline := by
    rw [Registry.outline?, present]
    rfl
  obtain ⟨later, laterFound, same⟩ := Option.map_eq_some_iff.1 (grown id _ outlined)
  rw [Registry.kind?, laterFound]
  exact congrArg some (Scope.outline_eq_iff.1 same).2.2.2

/-- A scope stays enclosed while kinds are kept. -/
theorem Scope.Enclosed.mono {before after : Registry ν} {id : ScopeId} {scope : Scope ν}
    (enclosed : scope.Enclosed before id) (kept : KeepsKinds before after) :
    scope.Enclosed after id := by
  obtain ⟨parent, outer, parentEq, older, found, nests⟩ := enclosed
  exact ⟨parent, outer, parentEq, older, kept parent outer found, nests⟩

/-- A change that keeps the kind of a scope keeps the kinds of all. -/
theorem keepsKinds_updateScope (registry : Registry ν) (id : ScopeId)
    {change : Scope ν -> Scope ν}
    (kinds : forall scope, (change scope).body.outline = scope.body.outline) :
    KeepsKinds registry (registry.updateScope id change) := by
  intro other kind found
  obtain ⟨old, oldFound, rfl⟩ := Registry.exists_of_kind? found
  rw [Registry.kind?, Registry.scope?_updateScope, oldFound]
  by_cases same : id = other
  · simp [same, kinds]
  · simp [same]

/-- The scopes of a registry form one tree, and nested namespaces are
namespaces. -/
structure Rooted (root : ScopeId) (registry : Registry ν) : Prop where
  global : ∃ scope, registry.scope? root = some scope ∧ scope.parent = none ∧
    scope.body.isGlobal = true
  enclosed : forall id scope, registry.scope? id = some scope -> id ≠ root ->
    scope.Enclosed registry id
  namespaces : forall id name inner, (registry.symbolsOf id).namespaces.find? name = some inner ->
    ∃ kind, registry.kind? inner = some kind ∧ kind.ownsSymbols = true

namespace Rooted

variable {root : ScopeId} {registry : Registry ν}

/-- The root is a scope. -/
theorem root_lt (rooted : Rooted root registry) : root < registry.scopes.size := by
  obtain ⟨_, found, _⟩ := rooted.global
  exact Registry.scope?_lt found

/-- The root is a global scope. -/
theorem isGlobal_root (rooted : Rooted root registry) : registry.isGlobal root = true := by
  obtain ⟨scope, found, _, isGlobal⟩ := rooted.global
  simp [Registry.isGlobal, found, isGlobal]

/-- A scope that is not global is not the root. -/
theorem ne_root (rooted : Rooted root registry) {id : ScopeId} {scope : Scope ν}
    (found : registry.scope? id = some scope) (notGlobal : scope.body.isGlobal = false) :
    id ≠ root := by
  intro atRoot
  subst atRoot
  obtain ⟨top, topFound, _, isGlobal⟩ := rooted.global
  obtain rfl : top = scope := Option.some.inj (topFound.symm.trans found)
  rw [notGlobal] at isGlobal
  cases isGlobal

/-- Every scope belongs to the program of the global scope. -/
theorem globalOf_eq (rooted : Rooted root registry) {id : ScopeId}
    (bound : id < registry.scopes.size) : registry.globalOf id = .ok root := by
  have last : ∃ scope, (registry.chain id).getLast? = some (root, scope) ∧
      scope.body.isGlobal = true := by
    induction id using Nat.strongRecOn with
    | ind id inductionHypothesis =>
        obtain ⟨scope, present⟩ := Registry.exists_scope bound
        rw [Registry.chain, present]
        by_cases atRoot : id = root
        · subst atRoot
          obtain ⟨top, topFound, noParent, isGlobal⟩ := rooted.global
          obtain rfl : top = scope := Option.some.inj (topFound.symm.trans present)
          exact ⟨top, by simp [noParent], isGlobal⟩
        · obtain ⟨parent, outer, parentEq, older, _⟩ := rooted.enclosed id scope present atRoot
          obtain ⟨last, lastEq, isGlobal⟩ :=
            inductionHypothesis parent older (Nat.lt_trans older bound)
          refine ⟨last, ?_, isGlobal⟩
          simp [parentEq, older, List.getLast?_cons, lastEq]
  obtain ⟨scope, lastEq, isGlobal⟩ := last
  simp [Registry.globalOf, lastEq, isGlobal]

/-- The search for a namespace comes from every scope to an owner of tables:
what holds of such an owner, and is handed from a scope that owns none to the
scopes directly inside it, holds of all scopes and their namespaces. -/
theorem namespaceOf_induction (rooted : Rooted root registry)
    (belongs : ScopeId -> ScopeId -> Prop)
    (own : forall id scope, registry.scope? id = some scope -> scope.body.ownsSymbols = true ->
      belongs id id)
    (inherited : forall id scope parent space, registry.scope? id = some scope ->
      scope.body.ownsSymbols = false -> scope.parent = some parent -> belongs parent space ->
        belongs id space)
    {id : ScopeId} (bound : id < registry.scopes.size) :
    ∃ space, registry.namespaceOf id = .ok space ∧ belongs id space := by
  unfold Registry.namespaceOf
  generalize registry.describe id = start
  induction id using Nat.strongRecOn with
  | ind id inductionHypothesis =>
      obtain ⟨scope, present⟩ := Registry.exists_scope bound
      cases owns : scope.body.ownsSymbols with
      | true =>
          refine ⟨id, ?_, own id scope present owns⟩
          rw [Registry.chain, present]
          simp only [innermostNamespace]
          revert owns
          cases scope.body <;> simp [Body.ownsSymbols, Body.symbols?]
      | false =>
          have notGlobal : scope.body.isGlobal = false := by
            revert owns
            cases scope.body <;> simp [Body.ownsSymbols, Body.symbols?, Body.isGlobal]
          obtain ⟨parent, outer, parentEq, older, outerFound, nests⟩ :=
            rooted.enclosed id scope present (rooted.ne_root present notGlobal)
          obtain ⟨space, spaceEq, belonging⟩ :=
            inductionHypothesis parent older (Nat.lt_trans older bound)
          refine ⟨space, ?_, inherited id scope parent space present owns parentEq belonging⟩
          rw [Registry.chain, present]
          simp only [parentEq, if_pos older, innermostNamespace]
          cases body : scope.body with
          | namespaceRoot symbols => rw [body] at owns; cases owns
          | globalRoot symbols => rw [body] at owns; cases owns
          | continuation =>
              -- the scope around a continuation is a namespace or continues one
              have outerSpace : outer.isNamespace = true := nests.continued (by rw [body]; rfl)
              obtain ⟨around, aroundFound, rfl⟩ := Registry.exists_of_kind? outerFound
              rw [Body.isNamespace_outline] at outerSpace
              rw [← spaceEq, Registry.chain, aroundFound]
              simp only [continuedNamespace, innermostNamespace]
              revert outerSpace
              cases around.body <;> simp [Body.isNamespace]
          | block => exact spaceEq
          | functionEntry => exact spaceEq
          | classBody members => exact spaceEq

/-- Every scope stands in a namespace that owns its tables. -/
theorem namespaceOf_eq (rooted : Rooted root registry) {id : ScopeId}
    (bound : id < registry.scopes.size) :
    ∃ space, registry.namespaceOf id = .ok space ∧
      ∃ owner, registry.kind? space = some owner ∧ owner.ownsSymbols = true := by
  refine rooted.namespaceOf_induction
    (fun _ space => ∃ owner, registry.kind? space = some owner ∧ owner.ownsSymbols = true)
    (fun id scope present owns => ?_) (fun _ _ _ _ _ _ _ belonging => belonging) bound
  exact ⟨_, Registry.kind?_of_scope present, (Body.ownsSymbols_outline _).trans owns⟩

/-- The tree is a matter of the scopes, not of what is recorded or noted. -/
theorem of_scopes_eq {after : Registry ν} (rooted : Rooted root registry)
    (same : after.scopes = registry.scopes) : Rooted root after := by
  obtain ⟨scopes, histories, journal⟩ := registry
  obtain ⟨_, _, _⟩ := after
  subst same
  obtain ⟨global, enclosed, namespaces⟩ := rooted
  exact ⟨global, enclosed, namespaces⟩

/-- Opening a scope with empty tables in a scope that admits it. -/
theorem push (rooted : Rooted root registry) {scope : Scope ν}
    (enclosed : scope.Enclosed registry registry.scopes.size)
    (tables : scope.body.symbols?.getD ∅ = ∅) : Rooted root (registry.push scope) where
  global := by
    obtain ⟨top, found, rest⟩ := rooted.global
    refine ⟨top, ?_, rest⟩
    rw [Registry.scope?_push, if_neg (Nat.ne_of_lt (Registry.scope?_lt found)), found]
  enclosed := by
    intro id present found notRoot
    have kept := (Extends.push registry scope).keepsKinds
    rw [Registry.scope?_push] at found
    split at found
    · rename_i new
      cases found
      subst new
      exact enclosed.mono kept
    · exact (rooted.enclosed id present found notRoot).mono kept
  namespaces := by
    intro id name inner found
    rw [Registry.symbolsOf_push] at found
    split at found
    · rw [tables] at found
      cases found
    · obtain ⟨kind, kindFound, owns⟩ := rooted.namespaces id name inner found
      exact ⟨kind, (Extends.push registry scope).keepsKinds inner kind kindFound, owns⟩

/-- Changing one scope that keeps its parent and kind, when the namespaces it
lists afterwards are in order. -/
theorem update (rooted : Rooted root registry) {id : ScopeId}
    {change : Scope ν -> Scope ν}
    (parents : forall scope, (change scope).parent = scope.parent)
    (kinds : forall scope, (change scope).body.outline = scope.body.outline)
    (namespaces : forall scope, registry.scope? id = some scope -> forall name inner,
      ((change scope).body.symbols?.getD ∅).namespaces.find? name = some inner ->
        ∃ kind, registry.kind? inner = some kind ∧ kind.ownsSymbols = true) :
    Rooted root (registry.updateScope id change) := by
  have kept := keepsKinds_updateScope registry id kinds
  refine ⟨?_, ?_, ?_⟩
  · obtain ⟨top, found, noParent, isGlobal⟩ := rooted.global
    rw [Registry.scope?_updateScope, found]
    by_cases atRoot : id = root
    · refine ⟨change top, by simp [atRoot], by rw [parents, noParent], ?_⟩
      rw [← Body.isGlobal_outline, kinds, Body.isGlobal_outline, isGlobal]
    · exact ⟨top, by simp [atRoot], noParent, isGlobal⟩
  · intro other scope found notRoot
    rcases Registry.scope?_updateScope_cases found with present | ⟨old, oldFound, rfl, rfl⟩
    · exact (rooted.enclosed other scope present notRoot).mono kept
    · obtain ⟨parent, outer, parentEq, older, outerFound, nests⟩ :=
        rooted.enclosed other old oldFound notRoot
      refine ⟨parent, outer, (parents old).trans parentEq, older, kept parent outer outerFound, ?_⟩
      refine ⟨?_, ?_, ?_⟩
      · rw [← Body.isGlobal_outline, kinds, Body.isGlobal_outline]
        exact nests.notGlobal
      · rw [kinds]
        exact nests.continued
      · rw [← Body.ownsSymbols_outline, kinds, Body.ownsSymbols_outline]
        exact nests.namespaced
  · intro other name inner found
    unfold Registry.symbolsOf at found
    split at found
    · rename_i scope scopeFound
      have old : ∃ kind, registry.kind? inner = some kind ∧ kind.ownsSymbols = true := by
        rcases Registry.scope?_updateScope_cases scopeFound with
          present | ⟨old, oldFound, rfl, rfl⟩
        · refine rooted.namespaces other name inner ?_
          rw [Registry.symbolsOf_of_scope present]
          exact found
        · exact namespaces old oldFound name inner found
      obtain ⟨kind, kindFound, owns⟩ := old
      exact ⟨kind, kept inner kind kindFound, owns⟩
    · cases found

end Rooted

end PhpTaint.Scopes
