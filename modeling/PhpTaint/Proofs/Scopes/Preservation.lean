import PhpTaint.Proofs.Scopes.Soundness

/-!
# What the operations on a registry preserve

Each operation that annotation performs keeps a sound registry sound and leaves
every older scope the snapshot it was. `Advances` packages the two, together with
the fact that only `annotate` writes annotations. The limit in it is there for
the entry of a function, which is filled in place: the scopes below the limit are
the ones that keep their outline. `Opens` adds which variables are visible at the
scope that an operation answers with.
-/

namespace PhpTaint.Scopes

open Syntax Outcome

variable {nodes : List Node} {root : ScopeId} {registry : Registry Node}

/-- Where the nodes of the program of a global scope stand, newest record first. -/
def Registry.annotationsOf {ν : Type} (registry : Registry ν) (root : ScopeId) :
    List (ν × ScopeId) :=
  (registry.historyOf root).annotations

/-- A sound registry that keeps the annotations of another one, all its scopes,
and the outlines of those below a limit. -/
structure Advances (nodes : List Node) (root : ScopeId) (limit : Nat)
    (before after : Registry Node) : Prop where
  sound : Sound nodes root after
  snapshots : forall id, id < limit -> after.outline? id = before.outline? id
  size_le : before.scopes.size <= after.scopes.size
  annotations : after.annotationsOf root = before.annotationsOf root

/-- An operation has answered with a scope at which the given variables are
visible. -/
structure Opens (nodes : List Node) (root : ScopeId) (before after : Registry Node)
    (id : ScopeId) (view : String -> Option (Binding Node)) : Prop where
  advances : Advances nodes root before.scopes.size before after
  bound : id < after.scopes.size
  visible : forall name, after.visible id name = view name

/-- Soundness is a matter of the scopes, not of what is recorded or noted. -/
theorem Sound.of_scopes_eq {before after : Registry Node} (sound : Sound nodes root before)
    (same : after.scopes = before.scopes) : Sound nodes root after := by
  obtain ⟨scopes, histories, journal⟩ := before
  obtain ⟨_, _, _⟩ := after
  subst same
  obtain ⟨global, enclosed, unbound, bindings, functions, namespaces⟩ := sound
  exact ⟨global, enclosed, unbound, bindings, functions, namespaces⟩

namespace Advances

variable {before middle after : Registry Node} {limit other : Nat}

theorem refl (sound : Sound nodes root registry) (limit : Nat) :
    Advances nodes root limit registry registry :=
  ⟨sound, fun _ _ => rfl, Nat.le_refl _, rfl⟩

/-- Advances below a limit go on below a higher one. -/
theorem trans (first : Advances nodes root limit before middle)
    (second : Advances nodes root other middle after) (below : limit <= other) :
    Advances nodes root limit before after where
  sound := second.sound
  snapshots := by
    intro id inside
    rw [second.snapshots id (Nat.lt_of_lt_of_le inside below), first.snapshots id inside]
  size_le := Nat.le_trans first.size_le second.size_le
  annotations := second.annotations.trans first.annotations

/-- An extension advances every scope that was open. -/
theorem of_extends (sound : Sound nodes root after) (grown : Extends before after)
    (annotations : after.annotationsOf root = before.annotationsOf root) :
    Advances nodes root before.scopes.size before after where
  sound := sound
  snapshots := fun _ inside => grown.outline_eq inside
  size_le := by
    apply Nat.le_of_not_lt
    intro fewer
    exact Nat.lt_irrefl _ (grown.lt_size fewer)
  annotations := annotations

/-- Below the limit every lookup finds what it found. -/
theorem visible_eq (advances : Advances nodes root limit before after) {id : ScopeId}
    (inside : id < limit) (name : String) : after.visible id name = before.visible id name :=
  Registry.visible_congr
    (fun place below => advances.snapshots place (Nat.lt_of_le_of_lt below inside)) name

/-- Below the limit every scope keeps its kind. -/
theorem keepsKind (advances : Advances nodes root limit before after) {id : ScopeId}
    {kind : Body Node} (inside : id < limit) (found : before.kind? id = some kind) :
    after.kind? id = some kind := by
  have outlines : forall registry : Registry Node,
      registry.kind? id = (registry.outline? id).map Scope.body := by
    intro registry
    rw [Registry.kind?, Registry.outline?, Option.map_map]
    rfl
  rw [outlines, advances.snapshots id inside, ← outlines, found]

/-- A note changes no scope. -/
theorem write (advances : Advances nodes root limit before after) (note : Note) :
    Advances nodes root limit before (after.write note) :=
  ⟨advances.sound.of_scopes_eq rfl, advances.snapshots, advances.size_le, advances.annotations⟩

/-- The scopes of before are still there. -/
theorem lt_size (advances : Advances nodes root limit before after) {id : ScopeId}
    (inside : id < before.scopes.size) : id < after.scopes.size :=
  Nat.lt_of_lt_of_le inside advances.size_le

end Advances

namespace Sound

/-- Opening a scope with empty tables in a scope that admits it. -/
theorem push (sound : Sound nodes root registry) {scope : Scope Node}
    (enclosed : scope.Enclosed registry registry.scopes.size)
    (unbound : scope.body.ownsSymbols = true -> scope.bindings = ∅)
    (bindings : forall name binding, scope.bindings.find? name = some binding ->
      binding.Suits nodes name)
    (tables : scope.body.symbols?.getD ∅ = ∅) : Sound nodes root (registry.push scope) where
  global := by
    obtain ⟨top, found, rest⟩ := sound.global
    refine ⟨top, ?_, rest⟩
    rw [Registry.scope?_push, if_neg (Nat.ne_of_lt (Registry.scope?_lt found)), found]
  enclosed := (sound.rooted.push enclosed tables).enclosed
  unbound := by
    intro id present found notRoot
    rw [Registry.scope?_push] at found
    split at found
    · cases found
      exact unbound
    · exact sound.unbound id present found notRoot
  bindings := by
    intro id present name binding found
    rw [Registry.scope?_push] at found
    split at found
    · cases found
      exact bindings name binding
    · exact sound.bindings id present name binding found
  functions := by
    intro id name node found
    rw [Registry.symbolsOf_push] at found
    split at found
    · rw [tables] at found
      cases found
    · exact sound.functions id name node found
  namespaces := (sound.rooted.push enclosed tables).namespaces

/-- Changing one scope that keeps its parent and kind, when what it binds and
declares afterwards is in order. -/
theorem update (sound : Sound nodes root registry) {id : ScopeId}
    {change : Scope Node -> Scope Node}
    (parents : forall scope, (change scope).parent = scope.parent)
    (kinds : forall scope, (change scope).body.outline = scope.body.outline)
    (spaces : forall scope, registry.scope? id = some scope -> scope.body.ownsSymbols = true ->
      (change scope).bindings = scope.bindings)
    (bindings : forall scope, registry.scope? id = some scope -> forall name binding,
      (change scope).bindings.find? name = some binding -> binding.Suits nodes name)
    (functions : forall scope, registry.scope? id = some scope -> forall name node,
      ((change scope).body.symbols?.getD ∅).functions.find? name = some node ->
        node ∈ nodes ∧ node.construct = .functionDefinition)
    (namespaces : forall scope, registry.scope? id = some scope -> forall name inner,
      ((change scope).body.symbols?.getD ∅).namespaces.find? name = some inner ->
        ∃ kind, registry.kind? inner = some kind ∧ kind.ownsSymbols = true) :
    Sound nodes root (registry.updateScope id change) := by
  have rooted := sound.rooted.update parents kinds namespaces
  have owners : forall scope, (change scope).body.ownsSymbols = scope.body.ownsSymbols := by
    intro scope
    rw [← Body.ownsSymbols_outline, kinds, Body.ownsSymbols_outline]
  refine ⟨?_, rooted.enclosed, ?_, ?_, ?_, rooted.namespaces⟩
  · obtain ⟨top, found, noParent, shared, isGlobal⟩ := sound.global
    by_cases atRoot : id = root
    · subst atRoot
      have owns : top.body.ownsSymbols = true := by
        revert isGlobal
        cases top.body <;> simp [Body.isGlobal, Body.ownsSymbols, Body.symbols?]
      refine ⟨change top, ?_, ?_, ?_, ?_⟩
      · simp [Registry.scope?_updateScope, found]
      · rw [parents, noParent]
      · rw [spaces top found owns, shared]
      · rw [← Body.isGlobal_outline, kinds, Body.isGlobal_outline, isGlobal]
    · refine ⟨top, ?_, noParent, shared, isGlobal⟩
      simp [Registry.scope?_updateScope, atRoot, found]
  · intro other scope found notRoot owns
    rcases Registry.scope?_updateScope_cases found with present | ⟨old, oldFound, rfl, rfl⟩
    · exact sound.unbound other scope present notRoot owns
    · rw [owners] at owns
      rw [spaces old oldFound owns]
      exact sound.unbound other old oldFound notRoot owns
  · intro other scope name binding found bound
    rcases Registry.scope?_updateScope_cases found with present | ⟨old, oldFound, rfl, rfl⟩
    · exact sound.bindings other scope name binding present bound
    · exact bindings old oldFound name binding bound
  · intro other name node found
    unfold Registry.symbolsOf at found
    split at found
    · rename_i scope scopeFound
      rcases Registry.scope?_updateScope_cases scopeFound with present | ⟨old, oldFound, rfl, rfl⟩
      · refine sound.functions other name node ?_
        rw [Registry.symbolsOf, present]
        exact found
      · exact functions old oldFound name node found
    · cases found

end Sound

end PhpTaint.Scopes
