import PhpTaint.Proofs.Scopes.Operations

/-!
# What operations record

Opening scopes and declaring names says nothing about the programs that are
resolved: where nodes stand and where top-level code ended is recorded by two
operations alone, and all the others leave the records as they are.
-/

namespace PhpTaint.Scopes

open Outcome

variable {ν α β : Type}

/-- An operation that leaves all records as they are when it succeeds. -/
def Unrecorded (operation : Registering ν α) : Prop :=
  forall before value after, operation before = .ok value after ->
    after.histories = before.histories

namespace Unrecorded

/-- A value records nothing. -/
theorem pure (value : α) : Unrecorded (Pure.pure value : Registering ν α) := by
  intro before result after ended
  rw [(pure_eq_ok.1 ended).2]

/-- A refused operation records nothing. -/
theorem throw (fault : Fault) : Unrecorded (throw fault : Registering ν α) := by
  intro before result after ended
  exact (throw_eq_ok.1 ended).elim

/-- A question records nothing. -/
theorem ask (query : Registry ν -> Except Fault α) : Unrecorded (Scopes.ask query) := by
  intro before result after ended
  rw [(ask_eq_ok.1 ended).2]

/-- A change that keeps the histories records nothing. -/
theorem modified {change : Registry ν -> Registry ν}
    (kept : forall registry, (change registry).histories = registry.histories) :
    Unrecorded (modify change : Registering ν PUnit) := by
  intro before result after ended
  rw [← modify_eq_ok.1 ended]
  exact kept before

/-- Two operations that each record nothing do so one after the other. -/
theorem bind {operation : Registering ν α} {next : α -> Registering ν β}
    (first : Unrecorded operation) (rest : forall value, Unrecorded (next value)) :
    Unrecorded (operation >>= next) := by
  intro before result after ended
  obtain ⟨value, middle, started, finished⟩ := bind_eq_ok.1 ended
  rw [rest value middle result after finished, first before value middle started]

/-- An operation may depend on the registry it begins with. -/
theorem get_bind {next : Registry ν -> Registering ν β}
    (rest : forall value, Unrecorded (next value)) : Unrecorded (get >>= next) := by
  intro before result after ended
  exact rest before before result after ended

/-- A new scope stands nowhere until a node is annotated with it. -/
theorem openScope (scope : Scope ν) : Unrecorded (Scopes.openScope scope) := by
  intro before result after ended
  obtain ⟨-, rfl⟩ := openScope_eq_ok.1 ended
  rfl

/-- A child scope is opened like any other. -/
theorem openChild (id : ScopeId) (bindings : Table String (Binding ν)) :
    Unrecorded (Scopes.openChild id bindings) := by
  apply get_bind
  intro registry
  split
  · exact openScope _
  · exact throw _

/-- Binding a variable opens a scope and records nothing. -/
theorem bindVariable (id : ScopeId) (name : String) (binding : Binding ν) :
    Unrecorded (Scopes.bindVariable id name binding) := by
  unfold Scopes.bindVariable
  split
  · exact openChild _ _
  · exact throw _

/-- A reference to a global is bound like any other variable. -/
theorem bindByReference (id : ScopeId) (name : String) (node : ν) :
    Unrecorded (Scopes.bindByReference id name node) :=
  (ask _).bind fun _ => bindVariable _ _ _

/-- The entry of a function is opened like any other scope. -/
theorem openFunction (name : String) (parent : Option ScopeId) :
    Unrecorded (Scopes.openFunction name parent : Registering ν ScopeId) :=
  (ask _).bind fun _ => openScope _

/-- What is changed inside a scope is not recorded. -/
theorem updateScope (id : ScopeId) (change : Scope ν -> Scope ν) :
    Unrecorded (modify fun registry => registry.updateScope id change : Registering ν PUnit) :=
  modified fun _ => rfl

/-- A parameter is bound without a record. -/
theorem bindOnEntry (id : ScopeId) (name : String) (binding : Binding ν) :
    Unrecorded (Scopes.bindOnEntry id name binding) := by
  apply get_bind
  intro registry
  split
  · split
    · exact updateScope _ _
    · exact throw _
  · exact throw _

/-- A declared function is listed with the symbols of its namespace, or with the members of its
class. -/
theorem declareFunction (id : ScopeId) (name : String) (node : ν) :
    Unrecorded (Scopes.declareFunction id name node) := by
  apply get_bind
  intro registry
  split
  · exact (updateScope _ _).bind fun _ => openFunction _ _
  · exact (ask _).bind fun _ => (updateScope _ _).bind fun _ => openFunction _ _

/-- A declared class is listed with the symbols of its namespace. -/
theorem declareClass (id : ScopeId) (name : String) (node : ν) :
    Unrecorded (Scopes.declareClass id name node) :=
  (ask _).bind fun _ => (updateScope _ _).bind fun _ => openScope _

/-- A declared constant is listed with the symbols or the members. -/
theorem declareConstant (id : ScopeId) (name : String) (node : ν) :
    Unrecorded (Scopes.declareConstant id name node) := by
  apply get_bind
  intro registry
  split
  · exact updateScope _ _
  · exact (ask _).bind fun _ => updateScope _ _

/-- A declared property is listed with the members of its class. -/
theorem declareProperty (id : ScopeId) (name : String) (node : ν) :
    Unrecorded (Scopes.declareProperty id name node) :=
  (ask _).bind fun _ => updateScope _ _

/-- A namespace is found, or opened and listed. -/
theorem enterNamespace (id : ScopeId) (name : String) :
    Unrecorded (Scopes.enterNamespace id name : Registering ν ScopeId) := by
  apply get_bind
  intro registry
  split
  · exact pure _
  · apply (openScope _).bind
    intro inner
    apply (updateScope _ _).bind
    intro _
    apply bind
    · exact modified fun _ => rfl
    · exact fun _ => pure inner

/-- A path of namespaces is entered one segment after the other. -/
theorem enterNamespaces (id : ScopeId) (name : List Char) :
    Unrecorded (Scopes.enterNamespaces id name : Registering ν ScopeId) := by
  fun_induction @Scopes.enterNamespaces ν id name with
  | case1 => exact throw _
  | case2 => exact enterNamespace _ _
  | case3 id name _ _ inductionHypothesis => exact (enterNamespace _ _).bind inductionHypothesis

/-- A namespace is looked for from the place of the declaration. -/
theorem declareNamespace (id : ScopeId) (name : String) :
    Unrecorded (Scopes.declareNamespace id name : Registering ν ScopeId) :=
  (ask _).bind fun _ => enterNamespaces _ _

end Unrecorded

end PhpTaint.Scopes
