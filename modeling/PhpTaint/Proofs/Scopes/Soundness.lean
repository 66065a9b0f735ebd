import PhpTaint.Proofs.Outcome
import PhpTaint.Proofs.Scopes.Rooted
import PhpTaint.Proofs.Syntax.Occurrence
import PhpTaint.Proofs.Table

/-!
# Soundness of a registry

A registry is `Sound` when its scopes hang together as annotation leaves them:
one global scope binds the shared variables, every other scope has an older
parent of a kind it can stand in, namespaces bind no variables, and whatever is
bound or declared is one of the nodes that were annotated and a construct that
binds or declares it. In a sound registry no lookup can fail for a structural
reason, and what it finds comes from the annotated files.
-/

namespace PhpTaint.Scopes

open Syntax

/-- Whether a name may have a binding: a construct gives the name a value, and a
reference stands for the global variable of the same name. -/
def Binding.Suits (nodes : List Node) (name : String) : Binding Node -> Prop
  | .referent node => node ∈ nodes ∧ name ∈ node.definedNames
  | .globalReference target _ _ => target = name
  | _ => True

/-- The scopes of a registry hang together, and what they bind and declare comes
from the given nodes. -/
structure Sound (nodes : List Node) (root : ScopeId) (registry : Registry Node) : Prop where
  global : ∃ scope, registry.scope? root = some scope ∧ scope.parent = none ∧
    scope.bindings = superglobals root ∧ scope.body.isGlobal = true
  enclosed : forall id scope, registry.scope? id = some scope -> id ≠ root ->
    scope.Enclosed registry id
  unbound : forall id scope, registry.scope? id = some scope -> id ≠ root ->
    scope.body.ownsSymbols = true -> scope.bindings = ∅
  bindings : forall id scope name binding, registry.scope? id = some scope ->
    scope.bindings.find? name = some binding -> binding.Suits nodes name
  functions : forall id name node, (registry.symbolsOf id).functions.find? name = some node ->
    node ∈ nodes ∧ node.construct = .functionDefinition
  namespaces : forall id name inner, (registry.symbolsOf id).namespaces.find? name = some inner ->
    ∃ kind, registry.kind? inner = some kind ∧ kind.ownsSymbols = true

/-- The shared variables of a program are bound to themselves. -/
theorem find?_superglobals {ν : Type} (root : ScopeId) (name : String) :
    (superglobals root : Table String (Binding ν)).find? name =
      if name ∈ superglobalNames then some (.superglobal name root) else none :=
  Table.find?_insertMany_map Table.empty superglobalNames
    (fun shared => Binding.superglobal shared root) name

theorem suits_of_superglobals {nodes : List Node} {root : ScopeId} {name : String}
    {binding : Binding Node} (found : (superglobals root).find? name = some binding) :
    binding.Suits nodes name := by
  rw [find?_superglobals] at found
  split at found
  · cases found
    trivial
  · cases found

/-- Only at a scope that exists does a name denote a function. -/
theorem Registry.lt_of_resolveFunction {ν : Type} {registry : Registry ν} {id : ScopeId}
    {name : String} {node : ν} (resolved : registry.resolveFunction id name = .ok node) :
    id < registry.scopes.size := by
  cases found : registry.scope? id with
  | some scope => exact Registry.scope?_lt found
  | none =>
      unfold resolveFunction resolveSymbol namespaceOf at resolved
      rw [Registry.chain, found] at resolved
      cases resolved

namespace Sound

variable {nodes : List Node} {root : ScopeId} {registry : Registry Node}

/-- The scopes of a sound registry form one tree. -/
theorem rooted (sound : Sound nodes root registry) : Rooted root registry where
  global := by
    obtain ⟨scope, found, noParent, _, isGlobal⟩ := sound.global
    exact ⟨scope, found, noParent, isGlobal⟩
  enclosed := sound.enclosed
  namespaces := sound.namespaces

theorem root_lt (sound : Sound nodes root registry) : root < registry.scopes.size :=
  sound.rooted.root_lt

theorem isGlobal_root (sound : Sound nodes root registry) : registry.isGlobal root = true :=
  sound.rooted.isGlobal_root

/-- The variables that are visible in a namespace are the shared ones. -/
theorem visible_of_ownsSymbols (sound : Sound nodes root registry) {id : ScopeId}
    {kind : Body Node} (found : registry.kind? id = some kind) (owns : kind.ownsSymbols = true)
    (name : String) : registry.visible id name = (superglobals root).find? name := by
  induction id using Nat.strongRecOn generalizing kind with
  | ind id inductionHypothesis =>
      obtain ⟨scope, present, rfl⟩ := Option.map_eq_some_iff.1 found
      rw [Body.ownsSymbols_outline] at owns
      rw [Registry.visible_of_scope present]
      by_cases atRoot : id = root
      · subst atRoot
        obtain ⟨top, topFound, noParent, shared, _⟩ := sound.global
        obtain rfl : top = scope := Option.some.inj (topFound.symm.trans present)
        rw [shared, noParent, find?_superglobals]
        by_cases listed : name ∈ superglobalNames
        · simp [listed, Binding.live]
        · simp [listed]
      · obtain ⟨parent, outer, parentEq, older, outerFound, nests⟩ :=
          sound.enclosed id scope present atRoot
        have passable : scope.body.isBoundary = false := by
          revert owns
          cases scope.body <;> simp [Body.ownsSymbols, Body.symbols?, Body.isBoundary]
        have inner := inductionHypothesis parent older outerFound (nests.namespaced owns)
        rw [sound.unbound id scope present atRoot owns, parentEq]
        simpa [passable, older] using inner

/-- Every scope belongs to the program of the global scope. -/
theorem globalOf_eq (sound : Sound nodes root registry) {id : ScopeId}
    (bound : id < registry.scopes.size) : registry.globalOf id = .ok root :=
  sound.rooted.globalOf_eq bound

/-- Every scope stands in a namespace that owns its tables. -/
theorem namespaceOf_eq (sound : Sound nodes root registry) {id : ScopeId}
    (bound : id < registry.scopes.size) :
    ∃ space, registry.namespaceOf id = .ok space ∧
      ∃ owner, registry.kind? space = some owner ∧ owner.ownsSymbols = true :=
  sound.rooted.namespaceOf_eq bound

/-- What a lookup of a function may answer. -/
def FunctionAnswer (nodes : List Node) : Except Fault Node -> Prop
  | .ok node => node ∈ nodes ∧ node.construct = .functionDefinition
  | .error fault => fault.isUnbound = true

theorem localSymbol_answer (sound : Sound nodes root registry) {id : ScopeId}
    (bound : id < registry.scopes.size) (fallback : Bool) (name : String) :
    FunctionAnswer nodes (registry.localSymbol .function fallback id name) := by
  unfold Registry.localSymbol
  split
  · rename_i node found
    exact sound.functions id _ node found
  · rw [sound.globalOf_eq bound]
    show FunctionAnswer nodes (if (fallback && id != root) = true then _ else _)
    split
    · split
      · rename_i node found
        exact sound.functions root _ node found
      · rfl
    · rfl

/-- A nested namespace owns tables, or it is not bound. -/
theorem nestedNamespace_answer (sound : Sound nodes root registry) (id : ScopeId) (name : String) :
    match registry.nestedNamespace id name with
    | .ok inner => inner < registry.scopes.size
    | .error fault => fault.isUnbound = true := by
  unfold Registry.nestedNamespace
  split
  · rename_i inner found
    split at found
    · rename_i space spaceFound
      obtain ⟨kind, kindFound, _⟩ := sound.namespaces id _ space spaceFound
      obtain ⟨_, present, _⟩ := Option.map_eq_some_iff.1 kindFound
      cases found
      exact Registry.scope?_lt present
    · cases found
  · rename_i fault found
    split at found
    · cases found
    · cases found
      rfl

theorem symbolAt_answer (sound : Sound nodes root registry) {id : ScopeId}
    (bound : id < registry.scopes.size) (fallback : Bool) (name : List Char) :
    FunctionAnswer nodes (registry.symbolAt .function fallback id name) := by
  induction size : name.length using Nat.strongRecOn generalizing id fallback name with
  | ind measure inductionHypothesis =>
      rw [Registry.symbolAt]
      split
      · rename_i rest view
        rw [sound.globalOf_eq bound]
        exact inductionHypothesis _ (size ▸ NameView.length_absolute_lt view) sound.root_lt false
          rest rfl
      · exact sound.localSymbol_answer bound fallback _
      · rename_i head tail view
        have nested := sound.nestedNamespace_answer id (String.ofList head)
        cases step : registry.nestedNamespace id (String.ofList head) with
        | error fault =>
            rw [step] at nested
            exact nested
        | ok inner =>
            rw [step] at nested
            exact inductionHypothesis _ (size ▸ NameView.length_qualified_lt view) nested false
              tail rfl

/-- A function that a name denotes is one of the annotated definitions, and the
only fault of the lookup is that there is none. -/
theorem resolveFunction_answer (sound : Sound nodes root registry) {id : ScopeId}
    (bound : id < registry.scopes.size) (name : String) :
    FunctionAnswer nodes (registry.resolveFunction id name) := by
  obtain ⟨space, spaceEq, owner, ownerFound, _⟩ := sound.namespaceOf_eq bound
  obtain ⟨_, present, _⟩ := Option.map_eq_some_iff.1 ownerFound
  unfold Registry.resolveFunction Registry.resolveSymbol
  rw [spaceEq]
  exact sound.symbolAt_answer (Registry.scope?_lt present) _ _

/-- A variable has no binding but one that suits its name. -/
theorem suits_of_visible (sound : Sound nodes root registry) {id : ScopeId} {name : String}
    {binding : Binding Node} (found : registry.visible id name = some binding) :
    binding.Suits nodes name := by
  induction id using Nat.strongRecOn with
  | ind id inductionHypothesis =>
      cases present : registry.scope? id with
      | none =>
          rw [Registry.visible_of_scope_none present] at found
          cases found
      | some scope =>
          rw [Registry.visible_of_scope present] at found
          cases own : scope.bindings.find? name with
          | some ownBinding =>
              rw [own] at found
              have suits := sound.bindings id scope name ownBinding present own
              cases ownBinding <;> simp only [Binding.live] at found <;> cases found <;> exact suits
          | none =>
              rw [own] at found
              simp only at found
              split at found
              · cases found
              · split at found
                · cases found
                · rename_i parent _
                  split at found
                  · rename_i older
                    exact inductionHypothesis parent older found
                  · cases found

/-- What is found at the end of the programs is found at some scope. -/
theorem exists_of_lookupAtEnd {id : ScopeId} {lookup : ScopeId -> Except Fault (Binding Node)}
    {binding : Binding Node} (found : registry.lookupAtEnd id lookup = .ok binding) :
    ∃ scope, lookup scope = .ok binding := by
  have first : forall scopes, registry.firstBound lookup scopes = .ok (some binding) ->
      ∃ scope, lookup scope = .ok binding := by
    intro scopes bound
    induction scopes with
    | nil => cases bound
    | cons scope rest inductionHypothesis =>
        rw [Registry.firstBound] at bound
        split at bound
        · cases bound
        · rename_i answer
          cases bound
          exact ⟨scope, answer⟩
        · exact inductionHypothesis bound
  unfold Registry.lookupAtEnd at found
  split at found
  · cases bound : registry.firstBound lookup (registry.historyOf id).programEnds.reverse with
    | error fault =>
        rw [bound] at found
        cases found
    | ok answer =>
        rw [bound] at found
        cases answer with
        | none => exact ⟨id, found⟩
        | some other =>
            cases found
            exact first _ bound
  · cases found

/-- The variable behind a reference has a binding that suits the name it is
referred to by. -/
theorem suits_of_followReference (sound : Sound nodes root registry) {name : String} {node : Node}
    {owner : ScopeId} {binding : Binding Node}
    (followed : registry.followReference (.globalReference name node owner) = .ok binding) :
    binding.Suits nodes name := by
  obtain ⟨scope, found⟩ := exists_of_lookupAtEnd followed
  exact sound.suits_of_visible (Registry.resolveVariable_eq_ok.1 found)

end Sound

end PhpTaint.Scopes
