import PhpTaint.Proofs.Scopes.Operations

/-!
# Operations on a rooted registry

However an operation ends, a rooted registry stays rooted. An operation on a
scope of such a registry can be refused for one reason only: a name is not
written as the operation needs it. `Grows` says what is left of the registry an
operation started from: all its scopes, each with its outline.
-/

namespace PhpTaint

/-- Whether a fault says that a name is not written as it has to be. -/
def Fault.isMisnamed : Fault -> Bool
  | .notAVariable _ | .absoluteName _ => true
  | _ => false

namespace Scopes

open Outcome

variable {ν : Type} {root : ScopeId} {registry : Registry ν}

/-- A rooted registry that holds everything that another one held. -/
structure Grows (root : ScopeId) (before after : Registry ν) : Prop where
  rooted : Rooted root after
  kept : Extends before after

/-- An operation was refused for a name and left a rooted registry. -/
def Refused (root : ScopeId) (fault : Fault) (after : Registry ν) : Prop :=
  fault.isMisnamed = true ∧ Rooted root after

/-- One scope is a child of another one in which a single variable has a new
binding. -/
def Registry.Forks (registry : Registry ν) (outer inner : ScopeId) : Prop :=
  ∃ scope name binding, registry.outline? outer = some scope ∧ outer < inner ∧
    registry.outline? inner =
      some ⟨scope.name, some outer, Table.empty.insert name binding, scope.body.successor⟩

/-- Forks remain forks when more scopes are opened. -/
theorem Extends.forks {before after : Registry ν} (grown : Extends before after)
    {outer inner : ScopeId} (forks : before.Forks outer inner) : after.Forks outer inner := by
  obtain ⟨scope, name, binding, outerFound, older, innerFound⟩ := forks
  exact ⟨scope, name, binding, grown _ _ outerFound, older, grown _ _ innerFound⟩

/-- A fork of a scope is a scope. -/
theorem Registry.Forks.lt_size {outer inner : ScopeId} (forks : registry.Forks outer inner) :
    inner < registry.scopes.size := by
  obtain ⟨_, _, _, _, _, found⟩ := forks
  obtain ⟨_, present, _⟩ := Option.map_eq_some_iff.1 found
  exact Registry.scope?_lt present

@[simp] theorem Body.successor_outline (body : Body ν) : body.outline.successor = body.successor :=
  by cases body <;> rfl

@[simp] theorem Body.outline_successor (body : Body ν) : body.successor.outline = body.successor :=
  by cases body <;> rfl

namespace Grows

variable {before middle after : Registry ν}

theorem refl (rooted : Rooted root registry) : Grows root registry registry :=
  ⟨rooted, Extends.refl registry⟩

/-- What grows in two stretches grows in both together. -/
theorem trans (first : Grows root before middle) (second : Grows root middle after) :
    Grows root before after :=
  ⟨second.rooted, first.kept.trans second.kept⟩

/-- Growth is a matter of the scopes alone. -/
theorem of_scopes_eq (grows : Grows root before middle) (same : after.scopes = middle.scopes) :
    Grows root before after := by
  refine ⟨grows.rooted.of_scopes_eq same, grows.kept.trans (Extends.of_scope?_eq fun id => ?_)⟩
  rw [Registry.scope?, Registry.scope?, same]

end Grows

namespace Rooted

/-- Opening a scope with empty tables in a scope that admits it. -/
theorem openScope (rooted : Rooted root registry) (scope : Scope ν) {parent : ScopeId}
    {outer : Body ν} (parentEq : scope.parent = some parent)
    (found : registry.kind? parent = some outer) (nests : scope.body.Nests outer)
    (tables : scope.body.symbols?.getD ∅ = ∅) : Grows root registry (registry.push scope) :=
  ⟨rooted.push ⟨parent, outer, parentEq, Registry.lt_of_kind? found, found, nests⟩ tables,
    Extends.push registry scope⟩

/-- Changing the tables of a namespace without listing another one in it. -/
theorem updateSymbols (rooted : Rooted root registry) (id : ScopeId)
    {change : Symbols ν -> Symbols ν}
    (namespaces : forall symbols name inner, (change symbols).namespaces.find? name = some inner ->
      symbols.namespaces.find? name = some inner ∨
        ∃ kind, registry.kind? inner = some kind ∧ kind.ownsSymbols = true) :
    Grows root registry (registry.updateScope id fun scope =>
      { scope with body := scope.body.updateSymbols change }) := by
  refine ⟨rooted.update (fun _ => rfl) (fun _ => Body.outline_updateSymbols _ _) ?_,
    Extends.updateScope registry id fun scope =>
      Scope.outline_eq_iff.2 ⟨rfl, rfl, rfl, Body.outline_updateSymbols _ _⟩⟩
  intro scope found name inner declared
  have old := rooted.namespaces id name inner
  rw [Registry.symbolsOf_of_scope found] at old
  revert declared old
  cases scope.body with
  | namespaceRoot symbols | globalRoot symbols =>
      intro declared old
      rcases namespaces symbols name inner declared with kept | new
      · exact old kept
      · exact new
  | block | functionEntry | continuation | classBody members =>
      intro declared
      cases declared

/-- Changing the tables of a class. -/
theorem updateMembers (rooted : Rooted root registry) (id : ScopeId)
    (change : Members ν -> Members ν) :
    Grows root registry (registry.updateScope id fun scope =>
      { scope with body := scope.body.updateMembers change }) := by
  refine ⟨rooted.update (fun _ => rfl) (fun _ => Body.outline_updateMembers _ _) ?_,
    Extends.updateScope registry id fun scope =>
      Scope.outline_eq_iff.2 ⟨rfl, rfl, rfl, Body.outline_updateMembers _ _⟩⟩
  intro scope found name inner declared
  refine rooted.namespaces id name inner ?_
  rw [Registry.symbolsOf_of_scope found]
  revert declared
  cases scope.body <;> exact fun declared => declared

/-- What follows on a body nests in it. -/
theorem successor_nests (body : Body ν) : body.successor.Nests body.outline := by
  cases body <;> constructor <;> intros <;> first | rfl | contradiction

/-- A binding opens a fork, unless the name is none of a variable. -/
theorem bindVariable (rooted : Rooted root registry) {id : ScopeId}
    (bound : id < registry.scopes.size) (name : String) (binding : Binding ν) :
    Ends (Scopes.bindVariable id name binding registry)
      (fun child after => Grows root registry after ∧ after.Forks id child) (Refused root) := by
  obtain ⟨scope, present⟩ := Registry.exists_scope bound
  unfold Scopes.bindVariable
  split
  · have opened : openChild id (Table.empty.insert name binding) registry =
        .ok registry.scopes.size (registry.push
          ⟨scope.name, some id, Table.empty.insert name binding, scope.body.successor⟩) := by
      refine bind_eq_ok.2 ⟨registry, registry, get_eq_ok.2 ⟨rfl, rfl⟩, ?_⟩
      simp only [present]
      rfl
    rw [opened]
    have grows : Grows root registry (registry.push
        ⟨scope.name, some id, Table.empty.insert name binding, scope.body.successor⟩) :=
      rooted.openScope _ rfl (Registry.kind?_of_scope present) (successor_nests scope.body)
        (by cases scope.body <;> rfl)
    have outlined : registry.outline? id = some scope.outline := by
      rw [Registry.outline?, present]
      rfl
    refine ⟨grows, scope.outline, name, binding, grows.kept _ _ outlined, bound, ?_⟩
    rw [Registry.outline?, Registry.scope?_push, if_pos rfl]
    simp [Scope.outline]
  · exact ⟨rfl, rooted⟩

/-- A reference opens a fork, unless the name is none of a variable. -/
theorem bindByReference (rooted : Rooted root registry) {id : ScopeId}
    (bound : id < registry.scopes.size) (name : String) (node : ν) :
    Ends (Scopes.bindByReference id name node registry)
      (fun child after => Grows root registry after ∧ after.Forks id child) (Refused root) := by
  refine Ends.bind_ok (ask_eq_ok.2 ⟨rooted.globalOf_eq bound, rfl⟩) ?_
  exact rooted.bindVariable bound name _

/-- The scope at a place is the entry of a function. -/
def EntryAt (registry : Registry ν) (entry : ScopeId) : Prop :=
  ∃ scope, registry.scope? entry = some scope ∧ scope.body = .functionEntry

/-- An entry stays an entry. -/
theorem EntryAt.later {before after : Registry ν} {entry : ScopeId}
    (atEntry : EntryAt before entry) (grown : Extends before after) : EntryAt after entry := by
  obtain ⟨scope, present, body⟩ := atEntry
  have kind := Registry.kind?_of_scope present
  rw [body] at kind
  obtain ⟨later, found, outlined⟩ := Registry.exists_of_kind? (grown.keepsKinds entry _ kind)
  refine ⟨later, found, ?_⟩
  revert outlined
  cases later.body <;> simp [Body.outline, Body.updateSymbols, Body.updateMembers]

/-- The entry of a function can be opened in every scope. -/
theorem openFunction (rooted : Rooted root registry) {outer : ScopeId}
    (bound : outer < registry.scopes.size) (name : String) :
    Ends (Scopes.openFunction name (some outer) registry)
      (fun entry after => Grows root registry after ∧ registry.scopes.size <= entry ∧
        EntryAt after entry) (Refused root) := by
  obtain ⟨scope, present⟩ := Registry.exists_scope bound
  have opened : Scopes.openFunction name (some outer) registry =
      .ok registry.scopes.size
        (registry.push ⟨name, some outer, superglobals root, .functionEntry⟩) := by
    refine bind_eq_ok.2 ⟨root, registry, ask_eq_ok.2 ⟨?_, rfl⟩, rfl⟩
    simp only [rooted.globalOf_eq bound]
  rw [opened]
  refine ⟨rooted.openScope _ rfl (Registry.kind?_of_scope present) ⟨rfl, nofun, nofun⟩ rfl,
    Nat.le_refl _, _, (Registry.scope?_push ..).trans (if_pos rfl), rfl⟩

/-- A binding on entry changes the entry only, and is refused for a name that is
none of a variable. -/
theorem bindOnEntry {before : Registry ν} (grows : Grows root before registry) {entry : ScopeId}
    (fresh : before.scopes.size <= entry) (atEntry : EntryAt registry entry) (name : String)
    (binding : Binding ν) :
    Ends (Scopes.bindOnEntry entry name binding registry)
      (fun _ after => Grows root before after ∧ EntryAt after entry) (Refused root) := by
  obtain ⟨⟨title, parent, bindings, _⟩, present, rfl⟩ := atEntry
  refine Ends.bind_get ?_
  simp only [present]
  split
  · refine ⟨⟨?_, ?_⟩, ?_⟩
    · refine grows.rooted.update (fun _ => rfl) (fun _ => rfl) ?_
      intro scope found inner place declared
      refine grows.rooted.namespaces entry inner place ?_
      rw [Registry.symbolsOf_of_scope found]
      exact declared
    · intro id scope found
      obtain ⟨_, old, _⟩ := Option.map_eq_some_iff.1 found
      have older : entry ≠ id := Nat.ne_of_gt (Nat.lt_of_lt_of_le (Registry.scope?_lt old) fresh)
      rw [Registry.outline?, Registry.scope?_updateScope, if_neg older]
      exact grows.kept id scope found
    · refine ⟨⟨title, parent, bindings.insert name binding, .functionEntry⟩, ?_, rfl⟩
      exact (Registry.scope?_updateScope ..).trans (by rw [if_pos rfl, present]; rfl)
  · exact ⟨rfl, grows.rooted⟩

/-- A function can be declared in every scope. -/
theorem declareFunction (rooted : Rooted root registry) {here : ScopeId}
    (bound : here < registry.scopes.size) (name : String) (node : ν) :
    Ends (Scopes.declareFunction here name node registry)
      (fun entry after => Grows root registry after ∧ registry.scopes.size <= entry ∧
        EntryAt after entry) (Refused root) := by
  have opens {middle : Registry ν} (grows : Grows root registry middle)
      (same : middle.scopes.size = registry.scopes.size) (title : String) :
      Ends (Scopes.openFunction title (some here) middle)
        (fun entry after => Grows root registry after ∧ registry.scopes.size <= entry ∧
          EntryAt after entry) (Refused root) := by
    refine (grows.rooted.openFunction (same ▸ bound) title).mono ?_
    rintro entry after ⟨further, fresh, atEntry⟩
    exact ⟨grows.trans further, same ▸ fresh, atEntry⟩
  obtain ⟨space, spaceEq, -⟩ := rooted.namespaceOf_eq bound
  have outside : Ends ((do
        let space ← ask fun current => current.namespaceOf here
        addFunction space name node
        Scopes.openFunction name (some here)) registry)
      (fun entry after => Grows root registry after ∧ registry.scopes.size <= entry ∧
        EntryAt after entry) (Refused root) := by
    refine Ends.bind_ok (ask_eq_ok.2 ⟨spaceEq, rfl⟩) (Ends.bind_modify ?_)
    refine opens (rooted.updateSymbols space ?_) (Registry.size_updateScope ..) name
    exact fun _ _ _ listed => Or.inl listed
  obtain ⟨⟨title, parent, bindings, body⟩, present⟩ := Registry.exists_scope bound
  refine Ends.bind_get ?_
  simp only [present]
  cases body with
  | classBody members =>
      refine Ends.bind_modify ?_
      exact opens (rooted.updateMembers here _) (Registry.size_updateScope ..) _
  | block | functionEntry | namespaceRoot _ | continuation | globalRoot _ => exact outside

/-- A class can be declared in every scope. -/
theorem declareClass (rooted : Rooted root registry) {here : ScopeId}
    (bound : here < registry.scopes.size) (name : String) (node : ν) :
    Ends (Scopes.declareClass here name node registry)
      (fun inner after => Grows root registry after ∧ inner < after.scopes.size)
      (Refused root) := by
  obtain ⟨space, spaceEq, -⟩ := rooted.namespaceOf_eq bound
  refine Ends.bind_ok (ask_eq_ok.2 ⟨spaceEq, rfl⟩) (Ends.bind_modify ?_)
  have grows : Grows root registry (registry.updateScope space fun scope =>
      { scope with body := scope.body.updateSymbols fun symbols =>
          { symbols with classes := symbols.classes.insert (Text.lower name) node } }) :=
    rooted.updateSymbols space fun _ _ _ listed => Or.inl listed
  obtain ⟨scope, present⟩ := Registry.exists_scope (grows.kept.lt_size bound)
  have opened := grows.rooted.openScope ⟨name, some here, ∅, .classBody ∅⟩ rfl
    (Registry.kind?_of_scope present) ⟨rfl, nofun, nofun⟩ rfl
  exact ⟨grows.trans opened, Nat.lt_of_lt_of_eq (Nat.lt_succ_self _) (Registry.size_push ..).symm⟩

/-- A constant can be declared in every scope. -/
theorem declareConstant (rooted : Rooted root registry) {here : ScopeId}
    (bound : here < registry.scopes.size) (name : String) (node : ν) :
    Ends (Scopes.declareConstant here name node registry)
      (fun _ after => Grows root registry after) (Refused root) := by
  obtain ⟨space, spaceEq, -⟩ := rooted.namespaceOf_eq bound
  obtain ⟨⟨title, parent, bindings, body⟩, present⟩ := Registry.exists_scope bound
  refine Ends.bind_get ?_
  simp only [present]
  cases body with
  | classBody members => exact rooted.updateMembers here _
  | block | functionEntry | namespaceRoot _ | continuation | globalRoot _ =>
      refine Ends.bind_ok (ask_eq_ok.2 ⟨spaceEq, rfl⟩) ?_
      exact rooted.updateSymbols space fun _ _ _ listed => Or.inl listed

/-- A property can be declared in every class. -/
theorem declareProperty (rooted : Rooted root registry) {here : ScopeId}
    (isClass : ((registry.scope? here).bind fun scope => scope.body.members?).isSome = true)
    (name : String) (node : ν) :
    Ends (Scopes.declareProperty here name node registry)
      (fun _ after => Grows root registry after) (Refused root) := by
  obtain ⟨members, found⟩ := Option.isSome_iff_exists.1 isClass
  have answered : registry.membersOf here = .ok members := by
    rw [Registry.membersOf, found]
  exact Ends.bind_ok (ask_eq_ok.2 ⟨answered, rfl⟩) (rooted.updateMembers here _)

/-- Listing a namespace in the tables of another one. -/
theorem listNamespace (rooted : Rooted root registry) (id : ScopeId) (key : String)
    {inner : ScopeId} {kind : Body ν} (found : registry.kind? inner = some kind)
    (owns : kind.ownsSymbols = true) :
    Grows root registry (registry.updateScope id fun scope =>
      { scope with body := scope.body.updateSymbols fun symbols =>
          { symbols with namespaces := symbols.namespaces.insert key inner } }) := by
  refine rooted.updateSymbols id fun symbols other place declared => ?_
  rw [Table.find?_insert] at declared
  split at declared
  · cases declared
    exact Or.inr ⟨kind, found, owns⟩
  · exact Or.inl declared

/-- A namespace can be entered from every namespace. -/
theorem enterNamespace (rooted : Rooted root registry) {space : ScopeId} {kind : Body ν}
    (found : registry.kind? space = some kind) (owns : kind.ownsSymbols = true) (name : String) :
    Ends (Scopes.enterNamespace space name registry)
      (fun inner after => Grows root registry after ∧
        ∃ kind, after.kind? inner = some kind ∧ kind.ownsSymbols = true) (Refused root) := by
  refine Ends.bind_get ?_
  cases known : (registry.symbolsOf space).namespaces.find? (Text.lower name) with
  | some inner => exact ⟨Grows.refl rooted, rooted.namespaces space _ inner known⟩
  | none =>
      have opened (title : String) :
          Grows root registry (registry.push ⟨title, some space, ∅, .namespaceRoot ∅⟩) :=
        rooted.openScope _ rfl found ⟨rfl, nofun, fun _ => owns⟩ rfl
      have fresh (title : String) :
          (registry.push ⟨title, some space, ∅, .namespaceRoot ∅⟩).kind?
            registry.scopes.size = some (.namespaceRoot ∅) := by
        rw [Registry.kind?, Registry.scope?_push, if_pos rfl]
        rfl
      have listed (title : String) :=
        (opened title).rooted.listNamespace space (Text.lower name) (fresh title) rfl
      exact ⟨((opened _).trans (listed _)).of_scopes_eq rfl, _,
        (listed _).kept.keepsKinds _ _ (fresh _), rfl⟩

/-- Namespaces can be entered one in the other from every namespace, unless the
name is absolute at some point. -/
theorem enterNamespaces (rooted : Rooted root registry) {space : ScopeId} {kind : Body ν}
    (found : registry.kind? space = some kind) (owns : kind.ownsSymbols = true)
    (name : List Char) :
    Ends (Scopes.enterNamespaces space name registry)
      (fun inner after => Grows root registry after ∧ inner < after.scopes.size)
      (Refused root) := by
  induction size : name.length using Nat.strongRecOn generalizing registry space name kind with
  | ind measure inductionHypothesis =>
      rw [Scopes.enterNamespaces]
      split
      · exact ⟨rfl, rooted⟩
      · split
        · refine (rooted.enterNamespace found owns _).mono ?_
          rintro inner after ⟨grows, innerKind, innerFound, -⟩
          exact ⟨grows, Registry.lt_of_kind? innerFound⟩
        · rename_i qualified
          refine Ends.bind (rooted.enterNamespace found owns _) ?_
          rintro inner middle ⟨grows, innerKind, innerFound, innerOwns⟩
          have shorter := size ▸ length_tailSegments_lt (Bool.eq_false_iff.2 qualified)
          refine (inductionHypothesis _ shorter grows.rooted innerFound innerOwns _ rfl).mono ?_
          rintro last after ⟨further, bound⟩
          exact ⟨grows.trans further, bound⟩

/-- A namespace can be declared in every scope, unless its name is absolute. -/
theorem declareNamespace (rooted : Rooted root registry) {here : ScopeId}
    (bound : here < registry.scopes.size) (name : String) :
    Ends (Scopes.declareNamespace here name registry)
      (fun inner after => Grows root registry after ∧ inner < after.scopes.size)
      (Refused root) := by
  obtain ⟨space, spaceEq, kind, found, owns⟩ := rooted.namespaceOf_eq bound
  refine Ends.bind_ok (ask_eq_ok.2 ⟨spaceEq, rfl⟩) ?_
  exact rooted.enterNamespaces found owns name.toList

/-- Recording something about the program of the global scope never fails. -/
theorem requireGlobal (rooted : Rooted root registry) :
    Scopes.requireGlobal root registry = .ok ⟨⟩ registry := by
  refine ask_eq_ok.2 ⟨?_, rfl⟩
  rw [rooted.isGlobal_root, if_pos rfl]

/-- A node can be annotated with any scope. -/
theorem annotate (rooted : Rooted root registry) (node : ν) (scope : ScopeId) :
    Ends (Scopes.annotate root node scope registry)
      (fun _ after => Grows root registry after) (Refused root) :=
  Ends.bind_ok rooted.requireGlobal ((Grows.refl rooted).of_scopes_eq rfl)

/-- Any scope can be recorded as the end of a program. -/
theorem recordProgramEnd (rooted : Rooted root registry) (scope : ScopeId) :
    Ends (Scopes.recordProgramEnd root scope registry)
      (fun _ after => Grows root registry after) (Refused root) :=
  Ends.bind_ok rooted.requireGlobal ((Grows.refl rooted).of_scopes_eq rfl)

end Rooted

end Scopes

end PhpTaint
