import PhpTaint.Proofs.Scopes.Preservation

/-!
# The operations of annotation, one by one

For every operation with which annotation opens a scope, binds a variable or
declares a name: if it succeeds on a sound registry, the registry advances, and
the variables visible at the scope it answers with are the ones listed.
-/

namespace PhpTaint.Scopes

open Syntax Outcome

variable {nodes : List Node} {root : ScopeId} {registry after : Registry Node}

theorem ask_eq_ok {ν α : Type} {query : Registry ν -> Except Fault α} {before after : Registry ν}
    {value : α} :
    ask query before = .ok value after ↔ query before = .ok value ∧ before = after := by
  unfold ask
  cases query before with
  | ok answer => simp
  | error fault => simp

theorem openScope_eq_ok {ν : Type} {scope : Scope ν} {before after : Registry ν} {id : ScopeId} :
    openScope scope before = .ok id after ↔ before.scopes.size = id ∧ before.push scope = after :=
  by rw [openScope, EStateM.Result.ok.injEq]; rfl

/-- What a fresh scope contributes to a lookup. -/
theorem Registry.visible_push {ν : Type} (registry : Registry ν) {scope : Scope ν}
    {parent : ScopeId} (parentEq : scope.parent = some parent)
    (bound : parent < registry.scopes.size) (name : String) :
    (registry.push scope).visible registry.scopes.size name =
      match scope.bindings.find? name with
      | some binding => Binding.live (some binding)
      | none => if scope.body.isBoundary then none else registry.visible parent name := by
  have fresh : (registry.push scope).scope? registry.scopes.size = some scope := by
    rw [scope?_push, if_pos rfl]
  have outer := (Extends.push registry scope).visible_eq bound name
  rw [visible_of_scope fresh, parentEq]
  cases scope.bindings.find? name with
  | some binding => rfl
  | none => simp only [bound, if_true, outer]

/-- A binding on entry is offered by the entry of a function only. -/
theorem updated_of_bindOnEntry {ν : Type} {before after : Registry ν} {entry : ScopeId}
    {name : String} {binding : Binding ν}
    (ended : bindOnEntry entry name binding before = .ok ⟨⟩ after) :
    (∃ scope, before.scope? entry = some scope ∧ scope.body = .functionEntry) ∧
      after = before.updateScope entry fun scope =>
        { scope with bindings := scope.bindings.insert name binding } := by
  obtain ⟨_, _, got, bound⟩ := bind_eq_ok.1 ended
  obtain ⟨rfl, rfl⟩ := get_eq_ok.1 got
  cases present : before.scope? entry with
  | none =>
      rw [present] at bound
      exact (throw_eq_ok.1 bound).elim
  | some scope =>
      obtain ⟨title, parent, bindings, body⟩ := scope
      rw [present] at bound
      cases body with
      | functionEntry =>
          simp only at bound
          split at bound
          · exact ⟨⟨_, rfl, rfl⟩, (modify_eq_ok.1 bound).symm⟩
          · exact (throw_eq_ok.1 bound).elim
      | block | classBody _ | namespaceRoot _ | continuation | globalRoot _ =>
          exact (throw_eq_ok.1 bound).elim

/-- Declaring a function writes to the tables of a class or of a namespace, and
then opens the entry. -/
theorem opened_of_declareFunction {ν : Type} {before after : Registry ν} {here entry : ScopeId}
    {name : String} {node : ν} (ended : declareFunction here name node before = .ok entry after) :
    ∃ middle title, openFunction title (some here) middle = .ok entry after ∧
      ((∃ change, updateMembers here change before = .ok ⟨⟩ middle) ∨
        (forall scope, before.scope? here = some scope -> scope.body.members? = none) ∧
          ∃ space, addFunction space name node before = .ok ⟨⟩ middle) := by
  obtain ⟨_, _, got, declared⟩ := bind_eq_ok.1 ended
  obtain ⟨rfl, rfl⟩ := get_eq_ok.1 got
  -- outside a class the namespace of the scope is written to
  have outside : forall plain : (forall scope, before.scope? here = some scope ->
        scope.body.members? = none),
      (do
        let space ← ask fun current => current.namespaceOf here
        addFunction space name node
        openFunction name (some here)) before = .ok entry after ->
      ∃ middle title, openFunction title (some here) middle = .ok entry after ∧
        ((∃ change, updateMembers here change before = .ok ⟨⟩ middle) ∨
          (forall scope, before.scope? here = some scope -> scope.body.members? = none) ∧
            ∃ space, addFunction space name node before = .ok ⟨⟩ middle) := by
    intro plain steps
    obtain ⟨space, _, asked, rest⟩ := bind_eq_ok.1 steps
    obtain ⟨-, rfl⟩ := ask_eq_ok.1 asked
    obtain ⟨_, middle, written, opened⟩ := bind_eq_ok.1 rest
    exact ⟨middle, name, opened, Or.inr ⟨plain, space, written⟩⟩
  cases present : before.scope? here with
  | none =>
      rw [present] at declared outside
      exact outside nofun declared
  | some scope =>
      obtain ⟨title, parent, bindings, body⟩ := scope
      rw [present] at declared outside
      cases body with
      | classBody members =>
          obtain ⟨_, middle, written, opened⟩ := bind_eq_ok.1 declared
          exact ⟨middle, _, opened, Or.inl ⟨_, written⟩⟩
      | block | functionEntry | namespaceRoot _ | continuation | globalRoot _ =>
          refine outside ?_ declared
          rintro scope same
          cases same
          rfl

namespace Sound

/-- Opening a scope with empty tables in a scope that admits it. -/
theorem opens_push (sound : Sound nodes root registry) (scope : Scope Node) {parent : ScopeId}
    {outer : Body Node} (parentEq : scope.parent = some parent)
    (outerFound : registry.kind? parent = some outer) (nests : scope.body.Nests outer)
    (unbound : scope.body.ownsSymbols = true -> scope.bindings = ∅)
    (bindings : forall name binding, scope.bindings.find? name = some binding ->
      binding.Suits nodes name)
    (tables : scope.body.symbols?.getD ∅ = ∅) :
    Opens nodes root registry (registry.push scope) registry.scopes.size fun name =>
      match scope.bindings.find? name with
      | some binding => Binding.live (some binding)
      | none => if scope.body.isBoundary then none else registry.visible parent name := by
  obtain ⟨_, present, _⟩ := Option.map_eq_some_iff.1 outerFound
  have bound := Registry.scope?_lt present
  refine ⟨?_, ?_, fun name => ?_⟩
  · refine Advances.of_extends ?_ (Extends.push registry scope) rfl
    exact sound.push ⟨parent, outer, parentEq, bound, outerFound, nests⟩ unbound bindings tables
  · rw [Registry.size_push]
    exact Nat.lt_succ_self _
  · rw [registry.visible_push parentEq bound name]
    cases scope.bindings.find? name <;> rfl

/-- Changing the tables of a namespace, when what they declare afterwards is in
order. -/
theorem updateSymbols (sound : Sound nodes root registry) {id : ScopeId}
    {change : Symbols Node -> Symbols Node} {done : PUnit}
    (ended : Scopes.updateSymbols id change registry = .ok done after)
    (functions : forall symbols name node, (change symbols).functions.find? name = some node ->
      symbols.functions.find? name = some node ∨
        node ∈ nodes ∧ node.construct = .functionDefinition)
    (namespaces : forall symbols name inner,
      (change symbols).namespaces.find? name = some inner ->
        symbols.namespaces.find? name = some inner ∨
          ∃ kind, registry.kind? inner = some kind ∧ kind.ownsSymbols = true) :
    Advances nodes root registry.scopes.size registry after := by
  obtain rfl := modify_eq_ok.1 ended
  refine Advances.of_extends ?_ (Extends.updateScope registry id fun scope => ?_) rfl
  · refine sound.update (fun _ => rfl) (fun scope => Body.outline_updateSymbols _ _)
      (fun _ _ _ => rfl) ?_ ?_ ?_
    · intro scope found name binding bound
      exact sound.bindings id scope name binding found bound
    · intro scope found name node declared
      have old := sound.functions id name node
      rw [Registry.symbolsOf_of_scope found] at old
      revert declared old
      cases scope.body with
      | namespaceRoot symbols | globalRoot symbols =>
          intro declared old
          rcases functions symbols name node declared with kept | new
          · exact old kept
          · exact new
      | block | functionEntry | continuation | classBody members =>
          intro declared
          cases declared
    · intro scope found name inner declared
      have old := sound.namespaces id name inner
      rw [Registry.symbolsOf_of_scope found] at old
      revert declared old
      cases scope.body with
      | namespaceRoot symbols | globalRoot symbols =>
          intro declared old
          rcases namespaces symbols name inner declared with kept | new
          · exact old kept
          · exact new
      | block | functionEntry | continuation | classBody members =>
          intro declared
          cases declared
  · exact Scope.outline_eq_iff.2 ⟨rfl, rfl, rfl, Body.outline_updateSymbols _ _⟩

/-- Changing the tables of a class. -/
theorem updateMembers (sound : Sound nodes root registry) (id : ScopeId)
    {change : Members Node -> Members Node}
    (ended : Scopes.updateMembers id change registry = .ok ⟨⟩ after) :
    Advances nodes root registry.scopes.size registry after := by
  obtain rfl := modify_eq_ok.1 ended
  have symbols : forall body : Body Node, (body.updateMembers change).symbols? = body.symbols? := by
    intro body
    cases body <;> rfl
  refine Advances.of_extends ?_ (Extends.updateScope registry id fun scope => ?_) rfl
  · refine sound.update (fun _ => rfl) (fun scope => Body.outline_updateMembers _ _)
      (fun _ _ _ => rfl) ?_ ?_ ?_
    · intro scope found name binding bound
      exact sound.bindings id scope name binding found bound
    · intro scope found name node declared
      have old := sound.functions id name node
      rw [Registry.symbolsOf_of_scope found] at old
      rw [symbols] at declared
      exact old declared
    · intro scope found name inner declared
      have old := sound.namespaces id name inner
      rw [Registry.symbolsOf_of_scope found] at old
      rw [symbols] at declared
      exact old declared
  · exact Scope.outline_eq_iff.2 ⟨rfl, rfl, rfl, Body.outline_updateMembers _ _⟩

/-- A binding opens a child in which one name has changed. -/
theorem bindVariable (sound : Sound nodes root registry) {id child : ScopeId} {name : String}
    {binding : Binding Node}
    (suits : binding.Suits nodes name)
    (ended : Scopes.bindVariable id name binding registry = .ok child after) :
    Opens nodes root registry after child fun other =>
      if other = name then Binding.live (some binding) else registry.visible id other := by
  unfold Scopes.bindVariable at ended
  split at ended
  · obtain ⟨_, _, got, opened⟩ := bind_eq_ok.1 ended
    obtain ⟨rfl, rfl⟩ := get_eq_ok.1 got
    cases present : registry.scope? id with
    | none =>
        rw [present] at opened
        exact (throw_eq_ok.1 opened).elim
    | some scope =>
        rw [present] at opened
        obtain ⟨rfl, rfl⟩ := openScope_eq_ok.1 opened
        have passable : scope.body.successor.isBoundary = false := by
          cases scope.body <;> rfl
        have nests : scope.body.successor.Nests scope.body.outline := by
          cases scope.body <;> constructor <;> intros <;> first | rfl | contradiction
        have opens := sound.opens_push
          ⟨scope.name, some id, Table.empty.insert name binding, scope.body.successor⟩
          rfl (Registry.kind?_of_scope present) nests
          (by intro owns; revert owns; cases scope.body <;> exact fun owns => nomatch owns)
          (by
            intro other bound found
            rw [Table.find?_insert] at found
            split at found
            · rename_i same
              subst same
              cases found
              exact suits
            · cases found)
          (by cases scope.body <;> rfl)
        refine ⟨opens.advances, opens.bound, fun other => ?_⟩
        rw [opens.visible, Table.find?_insert, passable]
        by_cases same : other = name
        · simp [same]
        · simp [same]
  · exact (throw_eq_ok.1 ended).elim

/-- A reference opens a child in which the name stands for the global variable. -/
theorem bindByReference (sound : Sound nodes root registry) {id child : ScopeId} {name : String}
    {node : Node} (bound : id < registry.scopes.size)
    (ended : Scopes.bindByReference id name node registry = .ok child after) :
    Opens nodes root registry after child fun other =>
      if other = name then Binding.live (some (.globalReference name node root))
      else registry.visible id other := by
  obtain ⟨owner, _, asked, opened⟩ := bind_eq_ok.1 ended
  obtain ⟨answered, rfl⟩ := ask_eq_ok.1 asked
  rw [sound.globalOf_eq bound] at answered
  cases answered
  exact sound.bindVariable rfl opened

/-- The entry of a function sees the shared variables only. -/
theorem openFunction (sound : Sound nodes root registry) {outer entry : ScopeId} {name : String}
    (bound : outer < registry.scopes.size)
    (ended : Scopes.openFunction name (some outer) registry = .ok entry after) :
    Opens nodes root registry after entry (superglobals root).find? ∧
      entry = registry.scopes.size := by
  obtain ⟨owner, _, asked, opened⟩ := bind_eq_ok.1 ended
  obtain ⟨answered, rfl⟩ := ask_eq_ok.1 asked
  simp only [sound.globalOf_eq bound] at answered
  cases answered
  obtain ⟨rfl, rfl⟩ := openScope_eq_ok.1 opened
  obtain ⟨scope, present⟩ := Registry.exists_scope bound
  have opens := sound.opens_push ⟨name, some outer, superglobals root, .functionEntry⟩
    rfl (Registry.kind?_of_scope present) ⟨rfl, nofun, nofun⟩ nofun
    (fun _ _ found => suits_of_superglobals found) rfl
  refine ⟨⟨opens.advances, opens.bound, fun other => ?_⟩, rfl⟩
  rw [opens.visible, find?_superglobals]
  by_cases shared : other ∈ superglobalNames
  · simp [shared, Binding.live]
  · simp [shared, Body.isBoundary]

/-- A binding on entry changes one name at the entry and nothing at older
scopes. -/
theorem bindOnEntry (sound : Sound nodes root registry) {entry : ScopeId} {name : String}
    {binding : Binding Node}
    (suits : binding.Suits nodes name)
    (ended : Scopes.bindOnEntry entry name binding registry = .ok ⟨⟩ after) :
    Advances nodes root entry registry after ∧ forall other, after.visible entry other =
      if other = name then Binding.live (some binding) else registry.visible entry other := by
  obtain ⟨⟨scope, present, body⟩, rfl⟩ := updated_of_bindOnEntry ended
  have changed : (registry.updateScope entry fun scope =>
      { scope with bindings := scope.bindings.insert name binding }).scope? entry =
        some { scope with bindings := scope.bindings.insert name binding } := by
    rw [Registry.scope?_updateScope, if_pos rfl, present]
    rfl
  refine ⟨⟨?_, ?_, ?_, rfl⟩, fun other => ?_⟩
  · refine sound.update (fun _ => rfl) (fun _ => rfl) ?_ ?_ ?_ ?_
    · intro old found owns
      obtain rfl := Option.some.inj (present.symm.trans found)
      rw [body] at owns
      cases owns
    · intro old found other bound listed
      rw [Table.find?_insert] at listed
      split at listed
      · rename_i same
        subst same
        cases listed
        exact suits
      · exact sound.bindings entry old other bound found listed
    · intro old found other node declared
      refine sound.functions entry other node ?_
      rw [Registry.symbolsOf_of_scope found]
      exact declared
    · intro old found other inner declared
      refine sound.namespaces entry other inner ?_
      rw [Registry.symbolsOf_of_scope found]
      exact declared
  · intro id older
    rw [Registry.outline?, Registry.scope?_updateScope, if_neg (Nat.ne_of_gt older)]
    rfl
  · exact Nat.le_of_eq (Registry.size_updateScope ..).symm
  · rw [Registry.visible_of_scope changed, Registry.visible_of_scope present, Table.find?_insert]
    by_cases same : other = name
    · simp [same]
    · simp [same, body, Body.isBoundary]

/-- Entering a function in the tables of a namespace. -/
theorem addFunction (sound : Sound nodes root registry) {space : ScopeId} {name : String}
    {node : Node} (member : node ∈ nodes) (isFunction : node.construct = .functionDefinition)
    (ended : Scopes.addFunction space name node registry = .ok ⟨⟩ after) :
    Advances nodes root registry.scopes.size registry after := by
  unfold Scopes.addFunction at ended
  refine sound.updateSymbols ended ?_ ?_
  · intro symbols other found listed
    rw [Table.find?_insert] at listed
    split at listed
    · cases listed
      exact Or.inr ⟨member, isFunction⟩
    · exact Or.inl listed
  · intro symbols other inner listed
    exact Or.inl listed

/-- Declaring a function or method leads to its entry. -/
theorem declareFunction (sound : Sound nodes root registry) {here entry : ScopeId} {name : String}
    {node : Node} (bound : here < registry.scopes.size) (member : node ∈ nodes)
    (kind : node.construct = .functionDefinition ∨
      ∃ scope, registry.scope? here = some scope ∧ scope.body.members?.isSome = true)
    (ended : Scopes.declareFunction here name node registry = .ok entry after) :
    Opens nodes root registry after entry (superglobals root).find? ∧
      registry.scopes.size <= entry := by
  obtain ⟨middle, title, opened, written⟩ := opened_of_declareFunction ended
  have advances : Advances nodes root registry.scopes.size registry middle := by
    rcases written with ⟨change, written⟩ | ⟨plain, space, written⟩
    · exact sound.updateMembers here written
    · have isFunction : node.construct = .functionDefinition := by
        rcases kind with isFunction | ⟨scope, present, isClass⟩
        · exact isFunction
        · rw [plain scope present] at isClass
          cases isClass
      exact sound.addFunction member isFunction written
  obtain ⟨opens, fresh⟩ := advances.sound.openFunction (advances.lt_size bound) opened
  refine ⟨⟨advances.trans opens.advances advances.size_le, opens.bound, opens.visible⟩, ?_⟩
  rw [fresh]
  exact advances.size_le

/-- A class body sees no variable. -/
theorem declareClass (sound : Sound nodes root registry) {here inner : ScopeId} {name : String}
    {node : Node} (bound : here < registry.scopes.size)
    (ended : Scopes.declareClass here name node registry = .ok inner after) :
    Opens nodes root registry after inner fun _ => none := by
  obtain ⟨space, _, asked, rest⟩ := bind_eq_ok.1 ended
  obtain ⟨-, rfl⟩ := ask_eq_ok.1 asked
  obtain ⟨_, middle, written, opened⟩ := bind_eq_ok.1 rest
  unfold Scopes.addClass at written
  have advances := sound.updateSymbols written (fun _ _ _ listed => Or.inl listed)
    (fun _ _ _ listed => Or.inl listed)
  obtain ⟨rfl, rfl⟩ := openScope_eq_ok.1 opened
  obtain ⟨scope, present⟩ := Registry.exists_scope (advances.lt_size bound)
  have opens := advances.sound.opens_push ⟨name, some here, ∅, .classBody ∅⟩ rfl
    (Registry.kind?_of_scope present) ⟨rfl, nofun, nofun⟩ nofun nofun rfl
  exact ⟨advances.trans opens.advances advances.size_le, opens.bound, opens.visible⟩

theorem declareConstant (sound : Sound nodes root registry) {here : ScopeId} {name : String}
    {node : Node} (ended : Scopes.declareConstant here name node registry = .ok ⟨⟩ after) :
    Advances nodes root registry.scopes.size registry after := by
  obtain ⟨_, _, got, declared⟩ := bind_eq_ok.1 ended
  obtain ⟨rfl, rfl⟩ := get_eq_ok.1 got
  have outside : (do
        let space ← ask fun current => current.namespaceOf here
        addConstant space name node) registry = .ok ⟨⟩ after ->
      Advances nodes root registry.scopes.size registry after := by
    intro steps
    obtain ⟨space, _, asked, written⟩ := bind_eq_ok.1 steps
    obtain ⟨-, rfl⟩ := ask_eq_ok.1 asked
    unfold Scopes.addConstant at written
    exact sound.updateSymbols written (fun _ _ _ listed => Or.inl listed)
      (fun _ _ _ listed => Or.inl listed)
  cases present : registry.scope? here with
  | none =>
      rw [present] at declared
      exact outside declared
  | some scope =>
      obtain ⟨title, parent, bindings, body⟩ := scope
      rw [present] at declared
      cases body with
      | classBody members => exact sound.updateMembers here declared
      | block | functionEntry | namespaceRoot _ | continuation | globalRoot _ =>
          exact outside declared

theorem declareProperty (sound : Sound nodes root registry) {here : ScopeId} {name : String}
    {node : Node} (ended : Scopes.declareProperty here name node registry = .ok ⟨⟩ after) :
    Advances nodes root registry.scopes.size registry after := by
  obtain ⟨_, _, asked, written⟩ := bind_eq_ok.1 ended
  obtain ⟨-, rfl⟩ := ask_eq_ok.1 asked
  exact sound.updateMembers here written

/-- Entering a namespace leads to a scope that owns tables. -/
theorem enterNamespace (sound : Sound nodes root registry) {space inner : ScopeId} {name : String}
    {kind : Body Node} (found : registry.kind? space = some kind) (owns : kind.ownsSymbols = true)
    (ended : Scopes.enterNamespace space name registry = .ok inner after) :
    Advances nodes root registry.scopes.size registry after ∧
      ∃ kind, after.kind? inner = some kind ∧ kind.ownsSymbols = true := by
  obtain ⟨_, _, got, entered⟩ := bind_eq_ok.1 ended
  obtain ⟨rfl, rfl⟩ := get_eq_ok.1 got
  cases listed : (registry.symbolsOf space).namespaces.find? (Text.lower name) with
  | some existing =>
      rw [listed] at entered
      obtain ⟨rfl, rfl⟩ := pure_eq_ok.1 entered
      exact ⟨Advances.refl sound _, sound.namespaces space _ existing listed⟩
  | none =>
      rw [listed] at entered
      obtain ⟨fresh, middle, opened, rest⟩ := bind_eq_ok.1 entered
      obtain ⟨_, written, declared, rest⟩ := bind_eq_ok.1 rest
      obtain ⟨_, noted, noting, answered⟩ := bind_eq_ok.1 rest
      obtain rfl := modify_eq_ok.1 noting
      obtain ⟨rfl, rfl⟩ := pure_eq_ok.1 answered
      obtain ⟨rfl, rfl⟩ := openScope_eq_ok.1 opened
      have opens (title : String) := sound.opens_push ⟨title, some space, ∅, .namespaceRoot ∅⟩
        rfl found ⟨rfl, nofun, fun _ => owns⟩ (fun _ => rfl) nofun rfl
      have freshKind : forall title, (registry.push ⟨title, some space, ∅, .namespaceRoot ∅⟩).kind?
          registry.scopes.size = some (.namespaceRoot ∅) := by
        intro title
        rw [Registry.kind?, Registry.scope?_push, if_pos rfl]
        rfl
      have updated := (opens _).advances.sound.updateSymbols declared
        (fun _ _ _ found => Or.inl found)
        (by
          intro symbols other target found
          rw [Table.find?_insert] at found
          split at found
          · cases found
            exact Or.inr ⟨_, freshKind _, rfl⟩
          · exact Or.inl found)
      refine ⟨((opens _).advances.trans updated (opens _).advances.size_le).write _, ?_⟩
      exact ⟨_, updated.keepsKind (opens _).bound (freshKind _), rfl⟩

/-- Entering namespaces one in the other leads to a scope that owns tables. -/
theorem enterNamespaces (sound : Sound nodes root registry) {space inner : ScopeId}
    {name : List Char} {kind : Body Node} (found : registry.kind? space = some kind)
    (owns : kind.ownsSymbols = true)
    (ended : Scopes.enterNamespaces space name registry = .ok inner after) :
    Advances nodes root registry.scopes.size registry after ∧
      ∃ kind, after.kind? inner = some kind ∧ kind.ownsSymbols = true := by
  induction size : name.length using Nat.strongRecOn generalizing registry space name kind with
  | ind measure inductionHypothesis =>
      rw [Scopes.enterNamespaces] at ended
      split at ended
      · exact (throw_eq_ok.1 ended).elim
      · split at ended
        · exact sound.enterNamespace found owns ended
        · rename_i qualified
          obtain ⟨next, middle, entered, rest⟩ := bind_eq_ok.1 ended
          obtain ⟨first, nextKind, nextFound, nextOwns⟩ := sound.enterNamespace found owns entered
          have shorter := size ▸ length_tailSegments_lt (Bool.eq_false_iff.2 qualified)
          obtain ⟨second, inside⟩ :=
            inductionHypothesis _ shorter first.sound nextFound nextOwns rest rfl
          exact ⟨first.trans second first.size_le, inside⟩

/-- A declared namespace sees the shared variables only. -/
theorem declareNamespace (sound : Sound nodes root registry) {here inner : ScopeId}
    {name : String} (bound : here < registry.scopes.size)
    (ended : Scopes.declareNamespace here name registry = .ok inner after) :
    Opens nodes root registry after inner (superglobals root).find? := by
  obtain ⟨space, _, asked, entered⟩ := bind_eq_ok.1 ended
  obtain ⟨answered, rfl⟩ := ask_eq_ok.1 asked
  obtain ⟨owner, ownerEq, kind, found, owns⟩ := sound.namespaceOf_eq bound
  obtain rfl : owner = space := by
    rw [ownerEq] at answered
    exact Except.ok.inj answered
  obtain ⟨advances, innerKind, innerFound, innerOwns⟩ := sound.enterNamespaces found owns entered
  obtain ⟨_, present, _⟩ := Option.map_eq_some_iff.1 innerFound
  exact ⟨advances, Registry.scope?_lt present,
    advances.sound.visible_of_ownsSymbols innerFound innerOwns⟩

/-- Annotating a node adds one record and changes no scope. -/
theorem annotate (sound : Sound nodes root registry) {node : Node} {id : ScopeId}
    (ended : Scopes.annotate root node id registry = .ok ⟨⟩ after) :
    Sound nodes root after ∧ after.scopes = registry.scopes ∧
      after.annotationsOf root = (node, id) :: registry.annotationsOf root := by
  obtain ⟨_, _, asked, written⟩ := bind_eq_ok.1 ended
  obtain ⟨-, rfl⟩ := ask_eq_ok.1 asked
  obtain rfl := modify_eq_ok.1 written
  refine ⟨sound.of_scopes_eq rfl, rfl, ?_⟩
  simp [Registry.annotationsOf, Registry.updateHistory, Registry.historyOf]

theorem recordProgramEnd (sound : Sound nodes root registry) {id : ScopeId}
    (ended : Scopes.recordProgramEnd root id registry = .ok ⟨⟩ after) :
    Advances nodes root registry.scopes.size registry after := by
  obtain ⟨_, _, asked, written⟩ := bind_eq_ok.1 ended
  obtain ⟨-, rfl⟩ := ask_eq_ok.1 asked
  obtain rfl := modify_eq_ok.1 written
  refine ⟨sound.of_scopes_eq rfl, fun _ _ => rfl, Nat.le_refl _, ?_⟩
  simp [Registry.annotationsOf, Registry.updateHistory, Registry.historyOf]

end Sound

end PhpTaint.Scopes
