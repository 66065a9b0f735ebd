import PhpTaint.Proofs.Scopes.Resemblance

/-!
# Operations on registries that resemble each other

Every operation on a registry keeps the resemblance and opens the same scopes in
both registries. What an operation does is pushing scopes, changing a scope,
writing to a history and taking notes; the lemmas about these come first.
-/

namespace PhpTaint.Scopes

variable {ν μ : Type}

variable {nodes : ν -> μ -> Prop} {notes : List (ν × ScopeId) -> List (μ × ScopeId) -> Prop}
  {owner : ScopeId} {first : Registry ν} {second : Registry μ}

/-- Registries that resemble each other do so with one more scope on both sides. -/
theorem Registry.Resembles.push (resembles : first.Resembles nodes notes owner second)
    {scope : Scope ν} {other : Scope μ} (related : scope.Resembles nodes other) :
    (first.push scope).Resembles nodes notes owner (second.push other) where
  size := by rw [size_push, size_push, resembles.size]
  scopes id := by
    rw [scope?_push, scope?_push, resembles.size]
    split
    · exact .some related
    · exact resembles.scopes id
  annotations := resembles.annotations
  ends := resembles.ends
  root := by
    have root := resembles.root
    unfold isGlobal at root ⊢
    split at root
    · rename_i found
      rw [scope?_push, if_neg (Nat.ne_of_lt (scope?_lt found)), found]
      exact root
    · cases root

/-- A change that keeps scopes alike, and global ones global, keeps registries alike. -/
theorem Registry.Resembles.updateScope (resembles : first.Resembles nodes notes owner second)
    (id : ScopeId) {change : Scope ν -> Scope ν} {other : Scope μ -> Scope μ}
    (kept : forall scope another, scope.Resembles nodes another ->
      (change scope).Resembles nodes (other another))
    (stays : forall scope, (change scope).body.isGlobal = scope.body.isGlobal) :
    (first.updateScope id change).Resembles nodes notes owner (second.updateScope id other) where
  size := by rw [size_updateScope, size_updateScope, resembles.size]
  scopes place := by
    rw [scope?_updateScope, scope?_updateScope]
    split
    · rcases resembles.scope_cases place with ⟨none, missing⟩ | ⟨_, _, found, present, related⟩
      · rw [none, missing]
        exact .none
      · rw [found, present]
        exact .some (kept _ _ related)
    · exact resembles.scopes place
  annotations := resembles.annotations
  ends := resembles.ends
  root := by
    have root := resembles.root
    unfold isGlobal at root ⊢
    rw [scope?_updateScope]
    split at root
    · rename_i found
      rw [found]
      by_cases here : id = owner
      · simpa only [if_pos here, Option.map_some, stays] using root
      · simpa only [if_neg here] using root
    · cases root

/-- Notes are not compared. -/
theorem Registry.Resembles.write_left (resembles : first.Resembles nodes notes owner second)
    (note : Note) : (first.write note).Resembles nodes notes owner second :=
  ⟨resembles.size, resembles.scopes, resembles.annotations, resembles.ends, resembles.root⟩

/-- Notes are not compared. -/
theorem Registry.Resembles.write_right (resembles : first.Resembles nodes notes owner second)
    (note : Note) : first.Resembles nodes notes owner (second.write note) :=
  ⟨resembles.size, resembles.scopes, resembles.annotations, resembles.ends, resembles.root⟩

/-- A question that has the same answer on both sides is asked in tandem. -/
theorem ask_tandem {α β : Type} {values : α -> β -> Prop} {query : Registry ν -> Except Fault α}
    {other : Registry μ -> Except Fault β}
    (answers : forall first second, Registry.Resembles nodes notes owner first second ->
      SameAnswer values (query first) (other second)) :
    Tandem (Registry.Resembles nodes notes owner) values (ask query) (ask other) := by
  intro first second before
  unfold ask
  have answer := answers first second before
  generalize query first = left at answer
  generalize other second = right at answer
  cases answer with
  | ok related => exact .ok related before
  | error fault => exact .error fault before

/-- A question to which both registries give one answer. -/
theorem ask_tandem_of_eq {α : Type} {query : Registry ν -> Except Fault α}
    {other : Registry μ -> Except Fault α}
    (same : forall first second, Registry.Resembles nodes notes owner first second ->
      other second = query first) :
    Tandem (Registry.Resembles nodes notes owner) Eq (ask query) (ask other) := by
  refine ask_tandem fun first second before => ?_
  rw [same first second before]
  cases query first with
  | ok value => exact .ok rfl
  | error fault => exact .error fault

/-- A scope gets the same number on both sides. -/
theorem openScope_tandem {scope : Scope ν} {other : Scope μ}
    (related : scope.Resembles nodes other) :
    Tandem (Registry.Resembles nodes notes owner) Eq (openScope scope) (openScope other) :=
  fun _ _ before => .ok before.size.symm (before.push related)

/-- The entry of a function gets the same number on both sides. -/
theorem openFunction_tandem (name : String) (parent : Option ScopeId) :
    Tandem (Registry.Resembles nodes notes owner) Eq (openFunction name parent)
      (openFunction name parent) := by
  unfold openFunction
  refine Tandem.bind_eq (ask_tandem_of_eq fun first second before => ?_) fun root =>
    openScope_tandem ⟨rfl, rfl, superglobals_resembles root, .functionEntry⟩
  cases parent with
  | none => rfl
  | some outer =>
      simp only [before.globalOf_eq]
      rfl

/-- Bindings that resemble each other are bound in tandem. -/
theorem bindVariable_tandem (id : ScopeId) (name : String) {binding : Binding ν}
    {other : Binding μ} (related : binding.Resembles nodes other) :
    Tandem (Registry.Resembles nodes notes owner) Eq (bindVariable id name binding)
      (bindVariable id name other) := by
  unfold bindVariable
  refine Tandem.ite (fun _ => ?_) fun _ => Tandem.throw _
  unfold openChild
  refine Tandem.get.bind fun first second before => ?_
  rcases before.scope_cases id with ⟨none, missing⟩ | ⟨scope, another, found, present, scopes⟩
  · rw [none, missing]
    exact Tandem.throw _
  · rw [found, present]
    refine openScope_tandem ⟨scopes.name, rfl, ?_, scopes.body.successor⟩
    exact Table.Resembles.empty.insert name related

/-- Related nodes are bound by value in tandem. -/
theorem bindByValue_tandem (id : ScopeId) (name : String) {node : ν} {other : μ}
    (related : nodes node other) :
    Tandem (Registry.Resembles nodes notes owner) Eq (bindByValue id name node)
      (bindByValue id name other) :=
  bindVariable_tandem id name (.referent related)

/-- A reference names a global and not a node, so any two nodes are bound in tandem. -/
theorem bindByReference_tandem (id : ScopeId) (name : String) (node : ν) (other : μ) :
    Tandem (Registry.Resembles nodes notes owner) Eq (bindByReference id name node)
      (bindByReference id name other) :=
  Tandem.bind_eq (ask_tandem_of_eq fun _ _ before => before.globalOf_eq id) fun root =>
    bindVariable_tandem id name (.globalReference name node other root)

/-- Bindings that resemble each other are put on the same entry in tandem. -/
theorem bindOnEntry_tandem (id : ScopeId) (name : String) {binding : Binding ν}
    {other : Binding μ} (related : binding.Resembles nodes other) :
    Tandem (Registry.Resembles nodes notes owner) Eq (bindOnEntry id name binding)
      (bindOnEntry id name other) := by
  unfold bindOnEntry
  refine Tandem.get.bind fun first second before => ?_
  rcases before.scope_cases id with ⟨none, missing⟩ | ⟨scope, another, found, present, scopes⟩
  · rw [none, missing]
    exact Tandem.throw _
  · rw [found, present]
    obtain ⟨place, outer, bindings, body⟩ := scope
    obtain ⟨otherPlace, otherOuter, otherBindings, otherBody⟩ := another
    have bodies : body.Resembles nodes otherBody := scopes.body
    cases bodies
    case functionEntry =>
      refine Tandem.ite (fun _ => Tandem.change fun _ _ states => ?_) fun _ => Tandem.throw _
      exact states.updateScope id
        (fun _ _ kept => ⟨kept.name, kept.parent, kept.bindings.insert name related, kept.body⟩)
        fun _ => rfl
    all_goals exact Tandem.throw _

/-- Changes that keep symbols alike are made in tandem. -/
theorem updateSymbols_tandem (id : ScopeId) {change : Symbols ν -> Symbols ν}
    {other : Symbols μ -> Symbols μ}
    (kept : forall symbols others, symbols.Resembles nodes others ->
      (change symbols).Resembles nodes (other others)) :
    Tandem (Registry.Resembles nodes notes owner) Eq (updateSymbols id change)
      (updateSymbols id other) :=
  Tandem.change fun _ _ before => before.updateScope id
    (fun _ _ scopes =>
      ⟨scopes.name, scopes.parent, scopes.bindings, scopes.body.updateSymbols kept⟩)
    fun scope => by cases body : scope.body <;> simp [Body.updateSymbols, Body.isGlobal]

/-- Members are not compared, so any changes to them are made in tandem. -/
theorem updateMembers_tandem (id : ScopeId) (change : Members ν -> Members ν)
    (other : Members μ -> Members μ) :
    Tandem (Registry.Resembles nodes notes owner) Eq (updateMembers id change)
      (updateMembers id other) :=
  Tandem.change fun _ _ before => before.updateScope id
    (fun _ _ scopes =>
      ⟨scopes.name, scopes.parent, scopes.bindings, scopes.body.updateMembers change other⟩)
    fun scope => by cases body : scope.body <;> simp [Body.updateMembers, Body.isGlobal]

/-- A scope belongs to the same namespace on both sides. -/
theorem namespaceOf_tandem (id : ScopeId) :
    Tandem (Registry.Resembles nodes notes owner) Eq (ask fun registry => registry.namespaceOf id)
      (ask fun registry => registry.namespaceOf id) :=
  ask_tandem_of_eq fun _ _ before => before.namespaceOf_eq id

/-- Related nodes are declared under one name in tandem. -/
theorem declareFunction_tandem (id : ScopeId) (name : String) {node : ν} {other : μ}
    (related : nodes node other) :
    Tandem (Registry.Resembles nodes notes owner) Eq (declareFunction id name node)
      (declareFunction id name other) := by
  have outside : Tandem (Registry.Resembles nodes notes owner) Eq
      (do
        let space ← ask fun current => current.namespaceOf id
        addFunction space name node
        openFunction name (some id))
      (do
        let space ← ask fun current => current.namespaceOf id
        addFunction space name other
        openFunction name (some id)) :=
    Tandem.bind_eq (namespaceOf_tandem id) fun space =>
      Tandem.bind_eq
        (updateSymbols_tandem space fun _ _ symbols =>
          ⟨symbols.functions.insert _ related, symbols.namespaces⟩)
        fun _ => openFunction_tandem name (some id)
  unfold declareFunction
  refine Tandem.get.bind fun first second before => ?_
  rcases before.scope_cases id with ⟨none, missing⟩ | ⟨scope, another, found, present, scopes⟩
  · rw [none, missing]
    exact outside
  · rw [found, present]
    obtain ⟨place, outer, bindings, body⟩ := scope
    obtain ⟨otherPlace, otherOuter, otherBindings, otherBody⟩ := another
    have bodies : body.Resembles nodes otherBody := scopes.body
    have names : otherPlace = place := scopes.name
    subst names
    cases bodies
    case classBody =>
      exact Tandem.bind_eq (updateMembers_tandem id _ _) fun _ => openFunction_tandem _ (some id)
    all_goals exact outside

/-- A class is declared in tandem by any two nodes, since classes are not compared. -/
theorem declareClass_tandem (id : ScopeId) (name : String) (node : ν) (other : μ) :
    Tandem (Registry.Resembles nodes notes owner) Eq (declareClass id name node)
      (declareClass id name other) :=
  Tandem.bind_eq (namespaceOf_tandem id) fun space =>
    Tandem.bind_eq
      (updateSymbols_tandem space fun _ _ symbols => ⟨symbols.functions, symbols.namespaces⟩)
      fun _ => openScope_tandem ⟨rfl, rfl, .empty, .classBody _ _⟩

/-- A constant is declared in tandem by any two nodes, since constants are not compared. -/
theorem declareConstant_tandem (id : ScopeId) (name : String) (node : ν) (other : μ) :
    Tandem (Registry.Resembles nodes notes owner) Eq (declareConstant id name node)
      (declareConstant id name other) := by
  have outside : Tandem (Registry.Resembles nodes notes owner) Eq
      (do
        let space ← ask fun current => current.namespaceOf id
        addConstant space name node)
      (do
        let space ← ask fun current => current.namespaceOf id
        addConstant space name other) :=
    Tandem.bind_eq (namespaceOf_tandem id) fun space =>
      updateSymbols_tandem space fun _ _ symbols => ⟨symbols.functions, symbols.namespaces⟩
  unfold declareConstant
  refine Tandem.get.bind fun first second before => ?_
  rcases before.scope_cases id with ⟨none, missing⟩ | ⟨scope, another, found, present, scopes⟩
  · rw [none, missing]
    exact outside
  · rw [found, present]
    obtain ⟨place, outer, bindings, body⟩ := scope
    obtain ⟨otherPlace, otherOuter, otherBindings, otherBody⟩ := another
    have bodies : body.Resembles nodes otherBody := scopes.body
    cases bodies
    case classBody => exact updateMembers_tandem id _ _
    all_goals exact outside

/-- A property is declared in tandem by any two nodes, since members are not compared. -/
theorem declareProperty_tandem (id : ScopeId) (name : String) (node : ν) (other : μ) :
    Tandem (Registry.Resembles nodes notes owner) Eq (declareProperty id name node)
      (declareProperty id name other) := by
  have asked : Tandem (Registry.Resembles nodes notes owner) (fun _ _ => True)
      (ask fun registry : Registry ν => registry.membersOf id)
      (ask fun registry : Registry μ => registry.membersOf id) := by
    refine ask_tandem fun first second before => ?_
    unfold Registry.membersOf
    have members := before.isSome_members_eq id
    generalize (first.scope? id).bind (fun scope => scope.body.members?) = left at members
    generalize (second.scope? id).bind (fun scope => scope.body.members?) = right at members
    cases left with
    | none =>
        cases right with
        | none => exact .error _
        | some => cases members
    | some =>
        cases right with
        | none => cases members
        | some => exact .ok trivial
  exact asked.bind fun _ _ _ => updateMembers_tandem id _ _

/-- A namespace is found on both sides or opened on both. -/
theorem enterNamespace_tandem (id : ScopeId) (name : String) :
    Tandem (Registry.Resembles nodes notes owner) Eq (enterNamespace id name)
      (enterNamespace id name) := by
  unfold enterNamespace
  refine Tandem.get.bind fun first second before => ?_
  rw [(before.symbolsOf id).namespaces]
  cases (first.symbolsOf id).namespaces.find? (Text.lower name) with
  | some inner => exact Tandem.pure rfl
  | none =>
      refine Tandem.bind_eq
        (openScope_tandem ⟨?_, rfl, .empty, .namespaceRoot .empty⟩) fun inner => ?_
      · rcases before.scope_cases id with ⟨none, missing⟩ | ⟨_, _, found, present, scopes⟩
        · rw [none, missing]
        · rw [found, present]
          simp only [nestedName, scopes.name, scopes.parent]
      refine Tandem.bind_eq
        (updateSymbols_tandem id fun _ _ symbols => ⟨symbols.functions, ?_⟩) fun _ => ?_
      · simp only [symbols.namespaces]
      · exact Tandem.bind_eq
          (Tandem.change fun _ _ states => (states.write_left _).write_right _)
          fun _ => Tandem.pure rfl

/-- A path of namespaces leads to the same scope on both sides. -/
theorem enterNamespaces_tandem (id : ScopeId) (name : List Char) :
    Tandem (Registry.Resembles nodes notes owner) Eq (enterNamespaces id name)
      (enterNamespaces id name) := by
  induction length : name.length using Nat.strongRecOn generalizing name id with
  | ind measure inductionHypothesis =>
      rw [enterNamespaces, enterNamespaces]
      refine Tandem.ite (fun _ => Tandem.throw _) fun _ => ?_
      by_cases single : isUnqualified name = true
      · rw [dif_pos single, dif_pos single]
        exact enterNamespace_tandem id _
      · rw [dif_neg single, dif_neg single]
        have shorter : (tailSegments name).length < measure :=
          length ▸ length_tailSegments_lt (Bool.eq_false_iff.2 single)
        exact Tandem.bind_eq (enterNamespace_tandem id _) fun inner =>
          inductionHypothesis _ shorter inner _ rfl

/-- A declaration of a namespace answers with the same scope on both sides. -/
theorem declareNamespace_tandem (id : ScopeId) (name : String) :
    Tandem (Registry.Resembles nodes notes owner) Eq (declareNamespace id name)
      (declareNamespace id name) :=
  Tandem.bind_eq (namespaceOf_tandem id) fun space => enterNamespaces_tandem space _

/-- A scope is the global one on both sides or on neither. -/
theorem requireGlobal_tandem (id : ScopeId) :
    Tandem (Registry.Resembles nodes notes owner) Eq (requireGlobal id) (requireGlobal id) :=
  ask_tandem_of_eq fun _ _ before => by rw [before.isGlobal_eq]

/-- A change of one history leaves the others as they are. -/
theorem Registry.historyOf_updateHistory (registry : Registry ν) (id place : ScopeId)
    (change : History ν -> History ν) :
    (registry.updateHistory id change).historyOf place =
      if place = id then change (registry.historyOf id) else registry.historyOf place := by
  unfold historyOf updateHistory
  rw [Table.find?_insert]
  split <;> rfl

/-- A change that keeps notes alike and the ends of programs equal keeps registries alike. -/
theorem Registry.Resembles.updateHistory (resembles : first.Resembles nodes notes owner second)
    (id : ScopeId) {change : History ν -> History ν} {other : History μ -> History μ}
    (noted : notes (change (first.historyOf id)).annotations
      (other (second.historyOf id)).annotations)
    (ended : (other (second.historyOf id)).programEnds =
      (change (first.historyOf id)).programEnds) :
    (first.updateHistory id change).Resembles nodes notes owner
      (second.updateHistory id other) where
  size := resembles.size
  scopes := resembles.scopes
  annotations place := by
    rw [historyOf_updateHistory, historyOf_updateHistory]
    split
    · exact noted
    · exact resembles.annotations place
  ends place := by
    rw [historyOf_updateHistory, historyOf_updateHistory]
    split
    · exact ended
    · exact resembles.ends place
  root := resembles.root

/-- An annotation on one side only, if it leaves the annotations related. -/
theorem Registry.Resembles.annotate_left (resembles : first.Resembles nodes notes owner second)
    (id : ScopeId) (entry : ν × ScopeId)
    (noted : forall {list others}, notes list others -> notes (entry :: list) others) :
    (first.updateHistory id fun history =>
      { history with annotations := entry :: history.annotations }).Resembles nodes notes owner
        second where
  size := resembles.size
  scopes := resembles.scopes
  annotations place := by
    rw [historyOf_updateHistory]
    split
    · rename_i here
      rw [here]
      exact noted (resembles.annotations id)
    · exact resembles.annotations place
  ends place := by
    rw [historyOf_updateHistory]
    split
    · rename_i here
      rw [here]
      exact resembles.ends id
    · exact resembles.ends place
  root := resembles.root

/-- The same scope is recorded as the end of a program on both sides. -/
theorem recordProgramEnd_tandem (id scope : ScopeId) :
    Tandem (Registry.Resembles nodes notes owner) Eq (recordProgramEnd id scope)
      (recordProgramEnd id scope) :=
  Tandem.bind_eq (requireGlobal_tandem id) fun _ => Tandem.change fun _ _ before =>
    before.updateHistory id (before.annotations id) (by simp only [before.ends])

/-- Nodes are annotated in tandem if the notes stay alike with them. -/
theorem annotate_tandem (id scope : ScopeId) {node : ν} {other : μ}
    (noted : forall {list others}, notes list others ->
      notes ((node, scope) :: list) ((other, scope) :: others)) :
    Tandem (Registry.Resembles nodes notes owner) Eq (annotate id node scope)
      (annotate id other scope) :=
  Tandem.bind_eq (requireGlobal_tandem id) fun _ => Tandem.change fun _ _ before =>
    before.updateHistory id (noted (before.annotations id)) (before.ends id)

/-- An annotation may be made on one side only. -/
theorem annotate_silent (scope : ScopeId) {node : ν}
    (noted : forall {list : List (ν × ScopeId)} {others : List (μ × ScopeId)},
      notes list others -> notes ((node, scope) :: list) others) :
    Tandem (Registry.Resembles nodes notes owner) Eq (annotate owner node scope)
      (pure ⟨⟩ : Registering μ PUnit) := by
  intro first second before
  have global : requireGlobal owner first = .ok () first := by
    simp only [requireGlobal, ask, before.root, if_true]
  show EndAlike _ _ (EStateM.bind (requireGlobal owner) _ first) _
  unfold EStateM.bind
  rw [global]
  exact .ok rfl (before.annotate_left owner (node, scope) noted)

end PhpTaint.Scopes
