import PhpTaint.Proofs.Scopes.NamespaceTable

/-!
# Scopes as snapshots

A scope stands for the variables at one point of a program, and nothing that
happens later changes them. Every step on a registry, refused ones included,
either extends it or binds a variable on entry to a function. An extension
leaves all lookups at the scopes that were open before as they were. A binding on
entry is seen by the lookups of that one name which get as far as the entry: a
lookup stops at the first scope with a binding of its own, and at the first
boundary.
-/

namespace PhpTaint.Scopes

open Outcome

variable {ν : Type}

/-- A step on a registry. -/
inductive Step (ν : Type) where
  /-- Open the global scope of a new program. -/
  | program
  /-- Perform an operation on a scope. -/
  | perform (operation : Operation ν)
  /-- Enter a function in the tables of a namespace. -/
  | register (id : ScopeId) (name : String) (node : ν)
  /-- Enter a class in the tables of a namespace. -/
  | registerClass (id : ScopeId) (name : String) (node : ν)
  /-- Record the scope in which a node stands. -/
  | annotate (root : ScopeId) (node : ν) (id : ScopeId)
  /-- Record the scope in which a program ended. -/
  | finish (root id : ScopeId)

namespace Registry

/-- The registry that a step leaves, whether it was refused or not. -/
def step (registry : Registry ν) : Step ν -> Registry ν
  | .program => left (openGlobal registry)
  | .perform operation => registry.after operation
  | .register id name node => left (registerFunction id name node registry)
  | .registerClass id name node => left (Scopes.registerClass id name node registry)
  | .annotate root node id => left (Scopes.annotate root node id registry)
  | .finish root id => left (recordProgramEnd root id registry)

/-- The registry that a run of steps leaves. -/
def run (registry : Registry ν) (steps : List (Step ν)) : Registry ν := steps.foldl step registry

/-- The scope at which the lookup of a name goes on after another one, which neither
binds the name nor is a boundary. -/
def next? (registry : Registry ν) (name : String) (id : ScopeId) : Option ScopeId :=
  (registry.scope? id).bind fun scope =>
    if scope.bindings.contains name || scope.body.isBoundary then none
    else scope.parent.filter fun parent => parent < id

/-- A search goes on to the parent of a scope that neither binds the name nor is a boundary. -/
theorem next?_eq_some {registry : Registry ν} {name : String} {id parent : ScopeId} :
    registry.next? name id = some parent ↔ ∃ scope, registry.scope? id = some scope ∧
      scope.bindings.find? name = none ∧ scope.body.isBoundary = false ∧
        scope.parent = some parent ∧ parent < id := by
  unfold next?
  cases registry.scope? id with
  | none => simp
  | some scope => simp [Table.contains, Option.filter_eq_some_iff, and_assoc]

/-- A lookup of a name at one scope gets as far as another one. -/
inductive Searches (registry : Registry ν) (name : String) (outer : ScopeId) : ScopeId -> Prop
  | here : Searches registry name outer outer
  | further {inner parent : ScopeId} (goesOn : registry.next? name inner = some parent)
      (searches : Searches registry name outer parent) : Searches registry name outer inner

/-- A search leads to scopes that were opened earlier. -/
theorem Searches.le {registry : Registry ν} {name : String} {outer inner : ScopeId}
    (searches : registry.Searches name outer inner) : outer <= inner := by
  induction searches with
  | here => exact Nat.le_refl _
  | further goesOn _ inductionHypothesis =>
      obtain ⟨_, _, _, _, _, older⟩ := next?_eq_some.1 goesOn
      exact Nat.le_of_lt (Nat.lt_of_le_of_lt inductionHypothesis older)

/-- A search that stops at a scope leads no further than that scope. -/
theorem Searches.eq_of_stops {registry : Registry ν} {name : String} {outer inner : ScopeId}
    (searches : registry.Searches name outer inner) (stops : registry.next? name inner = none) :
    outer = inner := by
  cases searches with
  | here => rfl
  | further goesOn _ =>
      rw [stops] at goesOn
      cases goesOn

end Registry

/-! ## What a step leaves as it was -/

/-- An action leaves the outline of every scope, however it ends. -/
def Conserves {α : Type} (action : Registering ν α) : Prop :=
  forall registry, Extends registry (left (action registry))

namespace Conserves

variable {α β : Type}

theorem pure (value : α) : Conserves (Pure.pure value : Registering ν α) :=
  fun registry => Extends.refl registry

/-- A refused action leaves the registry as it is. -/
theorem throw (fault : Fault) : Conserves (MonadExcept.throw fault : Registering ν α) :=
  fun registry => Extends.refl registry

/-- Two actions that each conserve the registry do so one after the other. -/
theorem bind {first : Registering ν α} {next : α -> Registering ν β} (conserves : Conserves first)
    (later : forall value, Conserves (next value)) : Conserves (first >>= next) := by
  intro registry
  show Extends registry (left (EStateM.bind first next registry))
  unfold EStateM.bind
  have start := conserves registry
  cases outcome : first registry with
  | ok value middle =>
      rw [outcome] at start
      exact start.trans (later value middle)
  | error fault middle =>
      rw [outcome] at start
      exact start

/-- What an action does next depends on the registry it reads. -/
theorem read {next : Registry ν -> Registering ν β} (later : forall seen, Conserves (next seen)) :
    Conserves (get >>= next) :=
  fun registry => later registry registry

/-- A question conserves the registry. -/
theorem ask (query : Registry ν -> Except Fault α) : Conserves (Scopes.ask query) := by
  intro registry
  unfold Scopes.ask
  cases query registry with
  | ok _ => exact Extends.refl registry
  | error _ => exact Extends.refl registry

/-- A new scope comes behind all others. -/
theorem openScope (scope : Scope ν) : Conserves (Scopes.openScope scope) :=
  fun registry => Extends.push registry scope

/-- Declaring a symbol touches the body of a scope only. -/
theorem updateSymbols (id : ScopeId) (change : Symbols ν -> Symbols ν) :
    Conserves (Scopes.updateSymbols id change) :=
  fun registry => Extends.updateScope registry id fun _ =>
    Scope.outline_eq_iff.2 ⟨rfl, rfl, rfl, Body.outline_updateSymbols _ _⟩

/-- Declaring a member touches the body of a scope only. -/
theorem updateMembers (id : ScopeId) (change : Members ν -> Members ν) :
    Conserves (Scopes.updateMembers id change) :=
  fun registry => Extends.updateScope registry id fun _ =>
    Scope.outline_eq_iff.2 ⟨rfl, rfl, rfl, Body.outline_updateMembers _ _⟩

/-- A change that opens and changes no scope. -/
theorem elsewhere {change : Registry ν -> Registry ν}
    (same : forall registry, (change registry).scopes = registry.scopes) :
    Conserves (modify change : Registering ν PUnit) :=
  fun registry => Extends.of_scope?_eq fun id => by
    show (change registry).scopes[id]? = registry.scopes[id]?
    rw [same]

/-- A child scope conserves the one that it is opened in. -/
theorem openChild (id : ScopeId) (bindings : Table String (Binding ν)) :
    Conserves (Scopes.openChild id bindings) := by
  refine read fun seen => ?_
  cases seen.scope? id with
  | none => exact throw _
  | some scope => exact openScope _

/-- Binding a variable opens a child scope and conserves the old one. -/
theorem bindVariable (id : ScopeId) (name : String) (binding : Binding ν) :
    Conserves (Scopes.bindVariable id name binding) := by
  unfold Scopes.bindVariable
  split
  · exact openChild id _
  · exact throw _

theorem bindByReference (id : ScopeId) (name : String) (node : ν) :
    Conserves (Scopes.bindByReference id name node) :=
  (ask _).bind fun _ => bindVariable id name _

/-- Opening a function adds its entry and conserves what is there. -/
theorem openFunction (name : String) (parent : Option ScopeId) :
    Conserves (Scopes.openFunction name parent : Registering ν ScopeId) :=
  (ask _).bind fun _ => openScope _

/-- What is declared in the namespace of a scope. -/
theorem inNamespace (id : ScopeId) {next : ScopeId -> Registering ν α}
    (later : forall space, Conserves (next space)) :
    Conserves ((Scopes.ask fun registry => registry.namespaceOf id) >>= next) :=
  (ask _).bind later

/-- Looking for the place of a declaration conserves the registry. -/
theorem registrationSpace (id : ScopeId) :
    Conserves (Scopes.registrationSpace id : Registering ν ScopeId) := by
  refine read fun seen => ?_
  cases seen.scope? id with
  | none => exact throw _
  | some scope =>
      show Conserves (if scope.body.isNamespace then _ else _)
      split
      · exact ask _
      · exact throw _

/-- Declaring a function conserves the bindings of every scope. -/
theorem declareFunction (id : ScopeId) (name : String) (node : ν) :
    Conserves (Scopes.declareFunction id name node) := by
  refine read fun seen => ?_
  have outside := inNamespace id fun space =>
    (updateSymbols space _ : Conserves (addFunction space name node)).bind fun _ =>
      openFunction name (some id)
  cases seen.scope? id with
  | none => exact outside
  | some scope =>
      obtain ⟨className, parent, bindings, body⟩ := scope
      cases body with
      | classBody members => exact (updateMembers id _).bind fun _ => openFunction _ _
      | block | functionEntry | namespaceRoot _ | continuation | globalRoot _ => exact outside

/-- Declaring a class conserves the bindings of every scope. -/
theorem declareClass (id : ScopeId) (name : String) (node : ν) :
    Conserves (Scopes.declareClass id name node) :=
  inNamespace id fun space =>
    (updateSymbols space _ : Conserves (addClass space name node)).bind fun _ => openScope _

/-- Declaring a constant conserves the bindings of every scope. -/
theorem declareConstant (id : ScopeId) (name : String) (node : ν) :
    Conserves (Scopes.declareConstant id name node) := by
  refine read fun seen => ?_
  have outside := inNamespace id fun space =>
    (updateSymbols space _ : Conserves (addConstant space name node))
  cases seen.scope? id with
  | none => exact outside
  | some scope =>
      obtain ⟨title, parent, bindings, body⟩ := scope
      cases body with
      | classBody members => exact updateMembers id _
      | block | functionEntry | namespaceRoot _ | continuation | globalRoot _ => exact outside

/-- Declaring a property conserves the bindings of every scope. -/
theorem declareProperty (id : ScopeId) (name : String) (node : ν) :
    Conserves (Scopes.declareProperty id name node) :=
  (ask _).bind fun _ => updateMembers id _

/-- A namespace is found or opened, and the scopes there are conserved. -/
theorem enterNamespace (id : ScopeId) (name : String) :
    Conserves (Scopes.enterNamespace id name : Registering ν ScopeId) := by
  refine read fun seen => ?_
  cases (seen.symbolsOf id).namespaces.find? (Text.lower name) with
  | some inner => exact pure inner
  | none =>
      exact (openScope _).bind fun inner => (updateSymbols id _).bind fun _ =>
        (elsewhere fun _ => rfl).bind fun _ => pure inner

/-- A path of namespaces is found or opened, and the scopes there are conserved. -/
theorem enterNamespaces (id : ScopeId) (name : List Char) :
    Conserves (Scopes.enterNamespaces id name : Registering ν ScopeId) := by
  induction size : name.length using Nat.strongRecOn generalizing id name with
  | ind measure inductionHypothesis =>
      rw [Scopes.enterNamespaces]
      split
      · exact throw _
      · split
        · exact enterNamespace id _
        · rename_i qualified
          have shorter := size ▸ length_tailSegments_lt (Bool.eq_false_iff.2 qualified)
          exact (enterNamespace id _).bind fun inner => inductionHypothesis _ shorter inner _ rfl

/-- What is recorded about the programs of a global scope. -/
theorem record (id : ScopeId) (change : History ν -> History ν) :
    Conserves (do
      requireGlobal id
      modify fun registry => registry.updateHistory id change : Registering ν PUnit) :=
  (ask _).bind fun _ => elsewhere fun _ => rfl

end Conserves

/-- Whether a body is a boundary is part of its outline. -/
theorem Body.isBoundary_eq_of_outline {left right : Body ν} (same : left.outline = right.outline) :
    left.isBoundary = right.isBoundary := by
  rw [← isBoundary_outline, same, isBoundary_outline]

/-- Every scope that was open before is still there, and what changed of it, if
anything, is what its tables declare, or the bindings of a boundary. -/
def Firm (before after : Registry ν) : Prop :=
  forall id old, before.scope? id = some old -> ∃ new, after.scope? id = some new ∧
    new.name = old.name ∧ new.parent = old.parent ∧ new.body.outline = old.body.outline ∧
      (old.body.isBoundary = false -> new.bindings = old.bindings)

namespace Firm

variable {before middle after : Registry ν}

/-- What stays firm in two stretches stays firm in both together. -/
theorem trans (first : Firm before middle) (second : Firm middle after) : Firm before after := by
  intro id old found
  obtain ⟨between, middleFound, name, parent, body, bindings⟩ := first id old found
  obtain ⟨new, present, laterName, laterParent, laterBody, laterBindings⟩ :=
    second id between middleFound
  refine ⟨new, present, laterName.trans name, laterParent.trans parent, laterBody.trans body,
    fun passable => ?_⟩
  rw [laterBindings ((Body.isBoundary_eq_of_outline body).trans passable), bindings passable]

/-- A registry that is extended stays firm. -/
theorem of_extends (grown : Extends before after) : Firm before after := by
  intro id old found
  obtain ⟨new, present, same⟩ := Option.map_eq_some_iff.1
    (grown id old.outline (by simp [Registry.outline?, found]))
  obtain ⟨name, parent, bindings, body⟩ := Scope.outline_eq_iff.1 same
  exact ⟨new, present, name, parent, body, fun _ => bindings⟩

/-- A binding on the entry of a function leaves every scope that is no boundary as it is. -/
theorem bindOnEntry {entry : ScopeId} {scope : Scope ν} (found : before.scope? entry = some scope)
    (isEntry : scope.body = .functionEntry) (name : String) (binding : Binding ν) :
    Firm before (before.updateScope entry fun scope =>
      { scope with bindings := scope.bindings.insert name binding }) := by
  intro id old present
  rw [Registry.scope?_updateScope, present]
  by_cases same : entry = id
  · subst same
    obtain rfl := Option.some.inj (found.symm.trans present)
    refine ⟨_, if_pos rfl, rfl, rfl, rfl, fun passable => ?_⟩
    rw [isEntry] at passable
    cases passable
  · exact ⟨old, if_neg same, rfl, rfl, rfl, fun _ => rfl⟩

/-- The scopes of a firm registry are still there. -/
theorem lt_size (firm : Firm before after) {id : ScopeId} (bound : id < before.scopes.size) :
    id < after.scopes.size := by
  obtain ⟨scope, found⟩ := Registry.exists_scope bound
  obtain ⟨_, present, _⟩ := firm id scope found
  exact Registry.scope?_lt present

/-- A scope keeps its name. -/
theorem nameOf_eq (firm : Firm before after) {id : ScopeId} (bound : id < before.scopes.size) :
    after.nameOf id = before.nameOf id := by
  obtain ⟨scope, found⟩ := Registry.exists_scope bound
  obtain ⟨new, present, name, _⟩ := firm id scope found
  simp only [Registry.nameOf, found, present, name]

/-- The variables behind the one that lists the global variables of a program stay
the same. -/
theorem globalBindings_eq (firm : Firm before after) {root : ScopeId}
    (bound : root < before.scopes.size) :
    after.globalBindings root = before.globalBindings root := by
  obtain ⟨old, found⟩ := Registry.exists_scope bound
  obtain ⟨new, present, -, -, bodies, bindings⟩ := firm root old found
  have sameKind : new.body.isGlobal = old.body.isGlobal := by
    rw [← Body.isGlobal_outline, bodies, Body.isGlobal_outline]
  simp only [Registry.globalBindings, found, present, sameKind]
  cases isRoot : old.body.isGlobal with
  | false => rfl
  | true =>
      have passable : old.body.isBoundary = false := by
        revert isRoot
        cases old.body <;> simp [Body.isGlobal, Body.isBoundary]
      rw [bindings passable]

/-- The way that a lookup takes through scopes that were open before is the way
it took. -/
theorem searches (firm : Firm before after) {name : String} {outer inner : ScopeId}
    (searches : after.Searches name outer inner) (bound : inner < before.scopes.size) :
    before.Searches name outer inner := by
  induction searches with
  | here => exact .here
  | further goesOn _ inductionHypothesis =>
      obtain ⟨scope, found, unbound, passable, parentEq, older⟩ := Registry.next?_eq_some.1 goesOn
      obtain ⟨old, present⟩ := Registry.exists_scope bound
      obtain ⟨new, newFound, -, parents, bodies, bindings⟩ := firm _ old present
      obtain rfl := Option.some.inj (newFound.symm.trans found)
      have passed : old.body.isBoundary = false :=
        (Body.isBoundary_eq_of_outline bodies).symm.trans passable
      refine .further (Registry.next?_eq_some.2 ?_) (inductionHypothesis (Nat.lt_trans older bound))
      exact ⟨old, present, bindings passed ▸ unbound, passed, parents ▸ parentEq, older⟩

end Firm

/-- Whether a step binds a name on entry to a function, and where. -/
def Step.bindsOnEntry (step : Step ν) (entry : ScopeId) (name : String) : Prop :=
  ∃ binding, step = .perform (.parameter entry name binding)

namespace Registry

variable {registry : Registry ν}

/-- A step that binds nothing on entry to a function extends the registry. -/
theorem extends_step {step : Step ν} (elsewhere : forall entry name,
    ¬ step.bindsOnEntry entry name) : Extends registry (registry.step step) := by
  cases step with
  | program => exact Extends.push registry _
  | perform operation =>
      cases operation with
      | child id => exact Conserves.openChild id ∅ registry
      | bind id name binding => exact Conserves.bindVariable id name binding registry
      | reference id name node => exact Conserves.bindByReference id name node registry
      | closure id name => exact Conserves.openFunction name (some id) registry
      | parameter id name binding => exact absurd ⟨binding, rfl⟩ (elsewhere id name)
      | function id name node => exact Conserves.declareFunction id name node registry
      | classLike id name node => exact Conserves.declareClass id name node registry
      | constant id name node => exact Conserves.declareConstant id name node registry
      | property id name node => exact Conserves.declareProperty id name node registry
      | space id name =>
          exact Conserves.inNamespace id (fun space => Conserves.enterNamespaces space _) registry
  | register id name node =>
      exact (Conserves.registrationSpace id).bind (fun _ => Conserves.updateSymbols _ _) registry
  | registerClass id name node =>
      exact (Conserves.registrationSpace id).bind (fun _ => Conserves.updateSymbols _ _) registry
  | annotate root node id => exact Conserves.record root _ registry
  | finish root id => exact Conserves.record root _ registry

/-- A step that binds a name on entry does that, or is refused. -/
theorem step_parameter (registry : Registry ν) (entry : ScopeId) (name : String)
    (binding : Binding ν) :
    registry.step (.perform (.parameter entry name binding)) = registry ∨
      (∃ scope, registry.scope? entry = some scope ∧ scope.body = .functionEntry) ∧
        registry.step (.perform (.parameter entry name binding)) =
          registry.updateScope entry fun scope =>
            { scope with bindings := scope.bindings.insert name binding } := by
  show left (bindOnEntry entry name binding registry) = registry ∨
    _ ∧ left (bindOnEntry entry name binding registry) = _
  cases ended : bindOnEntry entry name binding registry with
  | ok value after => exact Or.inr (updated_of_bindOnEntry ended)
  | error fault after =>
      refine Or.inl ?_
      rw [bindOnEntry, run_get_bind] at ended
      cases found : registry.scope? entry with
      | none =>
          rw [found] at ended
          cases ended
          rfl
      | some scope =>
          obtain ⟨title, parent, bindings, body⟩ := scope
          rw [found] at ended
          cases body with
          | functionEntry =>
              simp only at ended
              split at ended
              · cases ended
              · cases ended
                rfl
          | block | classBody _ | namespaceRoot _ | continuation | globalRoot _ =>
              cases ended
              rfl

/-- Every step keeps the registry firm, a refused one included. -/
theorem firm_step (registry : Registry ν) (step : Step ν) : Firm registry (registry.step step) := by
  by_cases binds : ∃ entry name, step.bindsOnEntry entry name
  · obtain ⟨entry, name, binding, rfl⟩ := binds
    rcases registry.step_parameter entry name binding with
      refused | ⟨⟨scope, found, isEntry⟩, written⟩
    · rw [refused]
      exact Firm.of_extends (Extends.refl registry)
    · rw [written]
      exact Firm.bindOnEntry found isEntry name binding
  · exact Firm.of_extends
      (extends_step fun entry name bound => binds ⟨entry, name, bound⟩)

/-- Every run keeps the registry firm. -/
theorem firm_run (steps : List (Step ν)) : Firm registry (registry.run steps) := by
  induction steps generalizing registry with
  | nil => exact Firm.of_extends (Extends.refl registry)
  | cons first rest inductionHypothesis =>
      exact (firm_step registry first).trans inductionHypothesis

/-! ## What a binding on entry changes -/

section BindingOnEntry

variable {entry : ScopeId} {scope : Scope ν} {bound : String} {binding : Binding ν}

/-- A lookup of another name, or one that does not get as far as the entry, does
not see what is bound there. -/
theorem visible_beside_entry (found : registry.scope? entry = some scope)
    (isEntry : scope.body = .functionEntry) {id : ScopeId} {name : String}
    (beside : name = bound -> ¬ registry.Searches name entry id) :
    (registry.updateScope entry fun scope =>
      { scope with bindings := scope.bindings.insert bound binding }).visible id name =
        registry.visible id name := by
  induction id using Nat.strongRecOn with
  | ind id inductionHypothesis =>
      by_cases same : entry = id
      · subst same
        have other : name ≠ bound := fun same => beside same .here
        have changed : (registry.updateScope entry fun scope =>
            { scope with bindings := scope.bindings.insert bound binding }).scope? entry =
              some { scope with bindings := scope.bindings.insert bound binding } := by
          rw [scope?_updateScope, if_pos rfl, found]
          rfl
        rw [visible_of_scope changed, visible_of_scope found, Table.find?_insert, if_neg other]
        simp [isEntry, Body.isBoundary]
      · have kept : (registry.updateScope entry fun scope =>
            { scope with bindings := scope.bindings.insert bound binding }).scope? id =
              registry.scope? id := by
          rw [scope?_updateScope, if_neg same]
        cases present : registry.scope? id with
        | none => rw [visible_of_scope_none (kept.trans present), visible_of_scope_none present]
        | some here =>
            rw [visible_of_scope (kept.trans present), visible_of_scope present]
            cases unbound : here.bindings.find? name with
            | some own => rfl
            | none =>
                cases passable : here.body.isBoundary with
                | true => rfl
                | false =>
                    cases parentEq : here.parent with
                    | none => rfl
                    | some parent =>
                        by_cases older : parent < id
                        · simp only [older, if_true]
                          refine inductionHypothesis parent older fun same searches => ?_
                          exact beside same (.further (next?_eq_some.2
                            ⟨here, present, unbound, passable, parentEq, older⟩) searches)
                        · simp only [older, if_false]

/-- A lookup that gets as far as the entry finds what is bound there. -/
theorem visible_behind_entry (found : registry.scope? entry = some scope) {id : ScopeId}
    (searches : registry.Searches bound entry id) :
    (registry.updateScope entry fun scope =>
      { scope with bindings := scope.bindings.insert bound binding }).visible id bound =
        Binding.live (some binding) := by
  induction searches with
  | here =>
      have changed : (registry.updateScope entry fun scope =>
          { scope with bindings := scope.bindings.insert bound binding }).scope? entry =
            some { scope with bindings := scope.bindings.insert bound binding } := by
        rw [scope?_updateScope, if_pos rfl, found]
        rfl
      rw [visible_of_scope changed, Table.find?_insert, if_pos rfl]
  | @further inner parent goesOn searches inductionHypothesis =>
      obtain ⟨here, present, unbound, passable, parentEq, older⟩ := next?_eq_some.1 goesOn
      have apart : entry ≠ inner := Nat.ne_of_lt (Nat.lt_of_le_of_lt searches.le older)
      have kept : (registry.updateScope entry fun scope =>
          { scope with bindings := scope.bindings.insert bound binding }).scope? inner =
            some here := by
        rw [scope?_updateScope, if_neg apart, present]
      rw [visible_of_scope kept, unbound, passable, parentEq]
      simpa [older] using inductionHypothesis

end BindingOnEntry

/-! ## Lookups along a run -/

/-- A step leaves a lookup as it was, unless it binds the name on an entry that
the lookup gets to. -/
theorem resolveVariable_step {step : Step ν} {id : ScopeId} {name : String}
    (bound : id < registry.scopes.size)
    (unseen : forall entry, step.bindsOnEntry entry name -> ¬ registry.Searches name entry id) :
    (registry.step step).resolveVariable id name = registry.resolveVariable id name := by
  have visible : (registry.step step).visible id name = registry.visible id name := by
    by_cases binds : ∃ entry other, step.bindsOnEntry entry other
    · obtain ⟨entry, other, binding, rfl⟩ := binds
      rcases registry.step_parameter entry other binding with
        refused | ⟨⟨scope, found, isEntry⟩, written⟩
      · rw [refused]
      · rw [written]
        refine visible_beside_entry found isEntry fun same => unseen entry ?_
        exact ⟨binding, by rw [same]⟩
    · exact (extends_step fun entry other other' => binds ⟨entry, other, other'⟩).visible_eq
        bound name
  rw [resolveVariable_eq, resolveVariable_eq, visible, (firm_step registry step).nameOf_eq bound]

/-- A run leaves a lookup as it was, unless one of its steps binds the name on an
entry that the lookup gets to. -/
theorem resolveVariable_run (steps : List (Step ν)) {id : ScopeId} {name : String}
    (bound : id < registry.scopes.size)
    (unseen : forall step, step ∈ steps -> forall entry, step.bindsOnEntry entry name ->
      ¬ registry.Searches name entry id) :
    (registry.run steps).resolveVariable id name = registry.resolveVariable id name := by
  induction steps generalizing registry with
  | nil => rfl
  | cons first rest inductionHypothesis =>
      have firm := firm_step registry first
      have later := inductionHypothesis (firm.lt_size bound) fun step member entry binds searches =>
        unseen step (List.mem_cons_of_mem _ member) entry binds (firm.searches searches bound)
      refine later.trans ?_
      exact resolveVariable_step bound (unseen first (List.mem_cons_self ..))

/-! ## What a child shadows -/

/-- What a lookup answers that finds a binding. -/
def answer (registry : Registry ν) (id : ScopeId) (name : String) :
    Binding ν -> Except Fault (Binding ν)
  | .unset => .error (.unbound name (registry.nameOf id))
  | binding => .ok binding

/-- A name has a new binding at a scope, or none, and every other name stands for
what it stood for at another scope. -/
def Shadows (before after : Registry ν) (id child : ScopeId) (name : String)
    (binding : Binding ν) : Prop :=
  after.resolveVariable child name = before.answer id name binding ∧
    forall other, other ≠ name ->
      after.resolveVariable child other = before.resolveVariable id other

/-- A binding that is visible at a place is what a lookup there answers. -/
theorem resolveVariable_of_visible {after : Registry ν} {id place : ScopeId} {name : String}
    {binding : Binding ν} (found : after.visible place name = Binding.live (some binding))
    (sameName : after.nameOf place = registry.nameOf id) :
    after.resolveVariable place name = registry.answer id name binding := by
  rw [resolveVariable_eq, found, sameName]
  cases binding <;> rfl

/-- Binding a variable opens a child that shadows it. -/
theorem bindVariable_shadows {id : ScopeId} (bound : id < registry.scopes.size) {name : String}
    (named : hasSigil name = true) (binding : Binding ν) :
    ∃ child after, bindVariable id name binding registry = .ok child after ∧
      Shadows registry after id child name binding := by
  obtain ⟨scope, present⟩ := exists_scope bound
  let inner : Scope ν :=
    ⟨scope.name, some id, Table.empty.insert name binding, scope.body.successor⟩
  have opened : bindVariable id name binding registry =
      .ok registry.scopes.size (registry.push inner) := by
    rw [bindVariable, if_pos named, openChild, run_get_bind]
    simp only [present]
    rfl
  have fresh : (registry.push inner).scope? registry.scopes.size = some inner := by
    rw [scope?_push, if_pos rfl]
  have sameName : (registry.push inner).nameOf registry.scopes.size = registry.nameOf id := by
    rw [nameOf, fresh, nameOf, present]
  have passable : inner.body.isBoundary = false := by
    show scope.body.successor.isBoundary = false
    cases scope.body <;> rfl
  have visible (other : String) : (registry.push inner).visible registry.scopes.size other =
      if other = name then Binding.live (some binding) else registry.visible id other := by
    rw [registry.visible_push rfl bound, Table.find?_insert, passable]
    by_cases same : other = name
    · simp [same]
    · simp [same]
  refine ⟨_, _, opened, resolveVariable_of_visible ?_ sameName, fun other apart => ?_⟩
  · rw [visible, if_pos rfl]
  · rw [resolveVariable_eq, resolveVariable_eq, visible, if_neg apart, sameName]

/-- A reference to a global hides that name, and no other one, from the child scope. -/
theorem bindByReference_shadows {id root : ScopeId} (rooted : registry.globalOf id = .ok root)
    (bound : id < registry.scopes.size) {name : String} (named : hasSigil name = true)
    (node : ν) :
    ∃ child after, bindByReference id name node registry = .ok child after ∧
      Shadows registry after id child name (.globalReference name node root) := by
  obtain ⟨child, after, opened, shadows⟩ :=
    bindVariable_shadows bound named (.globalReference name node root)
  refine ⟨child, after, bind_eq_ok.2 ⟨root, registry, ?_, opened⟩, shadows⟩
  exact ask_eq_ok.2 ⟨rooted, rfl⟩

end Registry

/-- Scopes are snapshots. Whatever steps a registry takes, a lookup at a scope that
was open before answers as it did, with the same fault if it failed, unless the
name is bound on an entry that the lookup gets to; then it answers with what is
bound there. The variables behind the one that lists the global variables stay the
same. Binding a variable, by value or by reference, and unsetting it open a child
that shadows this variable and no other. -/
theorem scopes_are_snapshots (registry : Registry ν) :
    (forall (steps : List (Step ν)) id name, id < registry.scopes.size ->
      (forall step, step ∈ steps -> forall entry, step.bindsOnEntry entry name ->
        ¬ registry.Searches name entry id) ->
      (registry.run steps).resolveVariable id name = registry.resolveVariable id name) ∧
    (forall entry name binding after id,
      bindOnEntry entry name binding registry = .ok ⟨⟩ after -> registry.Searches name entry id ->
        after.resolveVariable id name = registry.answer id name binding) ∧
    (forall (steps : List (Step ν)) root, root < registry.scopes.size ->
      (registry.run steps).globalBindings root = registry.globalBindings root) ∧
    forall id name, id < registry.scopes.size -> hasSigil name = true ->
      (forall node, ∃ child after, bindByValue id name node registry = .ok child after ∧
        registry.Shadows after id child name (.referent node)) ∧
      (forall node root, registry.globalOf id = .ok root ->
        ∃ child after, bindByReference id name node registry = .ok child after ∧
          registry.Shadows after id child name (.globalReference name node root)) ∧
      ∃ child after, unbindVariable id name registry = .ok child after ∧
        registry.Shadows after id child name .unset := by
  refine ⟨fun steps id name bound unseen => Registry.resolveVariable_run steps bound unseen, ?_,
    fun steps root bound => (Registry.firm_run steps).globalBindings_eq bound,
    fun id name bound named => ⟨fun node => ?_, fun node root rooted => ?_, ?_⟩⟩
  · intro entry name binding after id ended searches
    obtain ⟨⟨scope, found, isEntry⟩, rfl⟩ := updated_of_bindOnEntry ended
    refine Registry.resolveVariable_of_visible
      (Registry.visible_behind_entry found searches) ?_
    rw [Registry.nameOf, Registry.nameOf, Registry.scope?_updateScope]
    by_cases same : entry = id
    · subst same
      simp [found]
    · simp [same]
  · exact Registry.bindVariable_shadows bound named (.referent node)
  · exact Registry.bindByReference_shadows rooted bound named node
  · exact Registry.bindVariable_shadows bound named .unset

/-- A function, a scope in it that binds `$b`, and a closure inside that. -/
def nestedEntries : List (Step String) :=
  [.program, .perform (.function 0 "render" "render"), .perform (.bind 1 "$b" (.referent "1")),
    .perform (.closure 2 "inner")]

deriving instance DecidableEq for Binding

/-- What is bound on entry to the function is seen where nothing stands in between:
not behind a binding of the same name, and not in the closure. The scope before an
unset still has the variable, and the one after it every other one. -/
theorem scopes_are_snapshots_nested :
    let registry := Registry.run ∅ nestedEntries
    let steps : List (Step String) :=
      [.perform (.parameter 1 "$b" (.parameter "$b" "b" 0)), .perform (.bind 2 "$b" .unset),
        .perform (.constant 3 "LIMIT" "10"), .register 0 "render" "again", .finish 0 2]
    (registry.run steps).resolveVariable 2 "$b" = .ok (.referent "1") ∧
      (registry.run steps).resolveVariable 3 "$b" = .error (.unbound "$b" "inner") ∧
      (∃ after, bindOnEntry 1 "$a" (.parameter "$a" "a" 0) registry = .ok ⟨⟩ after ∧
        after.resolveVariable 2 "$a" = .ok (.parameter "$a" "a" 0)) ∧
      ∃ child after, unbindVariable 2 "$b" registry = .ok child after ∧
        after.resolveVariable child "$b" = .error (.unbound "$b" "render") ∧
        after.resolveVariable child "$_GET" = .ok (.superglobal "$_GET" 0) := by
  intro registry steps
  obtain ⟨unseen, seen, -, children⟩ := scopes_are_snapshots registry
  have size : registry.scopes.size = 4 := by decide +kernel
  -- a lookup that stops at an inner scope does not see what is bound on entry
  have hidden (id : ScopeId) (bound : id < 4) (apart : 1 ≠ id)
      (stops : registry.next? "$b" id = none) :
      (registry.run steps).resolveVariable id "$b" = registry.resolveVariable id "$b" := by
    refine unseen steps id "$b" (size ▸ bound) ?_
    rintro step member entry ⟨binding, rfl⟩ searches
    obtain ⟨rfl, -⟩ : entry = 1 ∧ binding = .parameter "$b" "b" 0 := by simpa [steps] using member
    exact apart (searches.eq_of_stops stops)
  refine ⟨?_, ?_, ?_, ?_⟩
  · rw [hidden 2 (by decide) (by decide) (by decide +kernel)]
    decide +kernel
  · rw [hidden 3 (by decide) (by decide) (by decide +kernel)]
    decide +kernel
  · have accepted : passes (fun _ _ => true)
        (bindOnEntry 1 "$a" (.parameter "$a" "a" 0) registry) = true := by decide +kernel
    obtain ⟨⟨⟩, after, ended, -⟩ := exists_of_passes accepted
    have goesOn : registry.next? "$a" 2 = some 1 := by decide +kernel
    exact ⟨after, ended, seen 1 "$a" _ after 2 ended (.further goesOn .here)⟩
  · obtain ⟨-, -, child, after, opened, unset, others⟩ :=
      children 2 "$b" (size ▸ by decide) (by decide +kernel)
    refine ⟨child, after, opened, unset.trans ?_, (others "$_GET" (by decide)).trans ?_⟩
    · decide +kernel
    · decide +kernel

end PhpTaint.Scopes
