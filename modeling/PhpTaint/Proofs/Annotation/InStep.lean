import PhpTaint.Proofs.Annotation.Mirror
import PhpTaint.Proofs.Annotation.Walk

/-!
# Visiting rules in step with the plain reading

One lemma for each visiting rule: it keeps a run of annotation in step with the
plain reading, if the visits of the parts do. A binding in a child of a scope is
an insertion in the dictionary that the scope shows; the entry of a function is
filled in place while nothing else can see it.
-/

namespace PhpTaint.Annotation

open Scopes Syntax Outcome Dictionary

variable {nodes : List Node} {owner : ScopeId} {state after : Annotator} {reading : State}

namespace Mirrors

/-- A state that mirrors a reading below some scope is in step with it. -/
theorem settle {limit : Nat} (mirrors : Mirrors nodes owner limit state reading) :
    InStep nodes owner state reading :=
  mirrors.raise mirrors.limit_le (Nat.le_refl _)

/-- A stamp is recorded by the reading, too. -/
theorem stampHere (inStep : InStep nodes owner state reading) {node : Node} {done : PUnit}
    (ended : Annotation.stampHere node state = .ok done after) :
    InStep nodes owner after (reading.stampHere node) := by
  obtain ⟨here, _, located, stamped⟩ := bind_eq_ok.1 ended
  obtain ⟨rfl, shows⟩ := inStep.current located
  exact (inStep.stamp shows stamped).1.settle

/-- An operation that opens a scope keeps in step, and the scope shows a
dictionary. -/
theorem opened (inStep : InStep nodes owner state reading) {registry : Registry Node}
    {id : ScopeId} {view : String -> Option (Binding Node)} (store : Store)
    (opens : Opens nodes owner state.registry registry id view)
    (same : forall name, view name = store.find? name) :
    InStep nodes owner { state with registry := registry } reading ∧
      Shows registry registry.scopes.size id store :=
  ⟨inStep.advance opens.advances, Shows.of_opens opens same⟩

end Mirrors

/-- What a binding changes, seen at a scope, is what an insertion changes in the
dictionary that the scope shows. -/
theorem Shows.insert {registry : Registry Node} {limit : Nat} {id : ScopeId} {store : Store}
    (shows : Shows registry limit id store) {name : String} {binding : Binding Node}
    (live : Binding.live (some binding) = some binding) (other : String) :
    (if other = name then Binding.live (some binding) else registry.visible id other) =
      (store.insert name binding).find? other := by
  rw [Table.find?_insert, shows.2, live]

section Binding

/-- A binding in a child of a scope. -/
theorem bindVariable_inStep (inStep : InStep nodes owner state reading) {id child : ScopeId}
    {store : Store} (shows : Shows state.registry state.registry.scopes.size id store)
    {name : String} {binding : Binding Node}
    (live : Binding.live (some binding) = some binding)
    (suits : binding.Suits nodes name)
    (ended : onRegistry (bindVariable id name binding) state = .ok child after) :
    InStep nodes owner after reading ∧
      Shows after.registry after.registry.scopes.size child (store.insert name binding) := by
  obtain ⟨registry, bound, rfl⟩ := onRegistry_eq_ok.1 ended
  exact inStep.opened _ (inStep.sound.bindVariable suits bound) (shows.insert live)

/-- The targets of a construct, bound one after the other. -/
theorem bindTargets_inStep (inStep : InStep nodes owner state reading) {id child : ScopeId}
    {store : Store} (shows : Shows state.registry state.registry.scopes.size id store)
    {node : Node} (member : node ∈ nodes) {targets : List Node}
    (names : forall target, target ∈ targets -> target.text ∈ node.definedNames)
    (ended : bindTargets node targets id state = .ok child after) :
    InStep nodes owner after reading ∧
      Shows after.registry after.registry.scopes.size child (define node targets store) := by
  unfold bindTargets at ended
  refine foldlM_beside
    (fun scope (current : Annotator) held => InStep nodes owner current reading ∧
      Shows current.registry current.registry.scopes.size scope held)
    ?_ ⟨inStep, shows⟩ ended
  rintro target inside scope current held next later ⟨kept, showing⟩ bound
  exact bindVariable_inStep kept showing rfl ⟨member, names target inside⟩ bound

/-- A statement ends with its scope in the place of the current one, and stands
in that scope. -/
theorem finish_inStep (inStep : InStep nodes owner state reading) {scope : ScopeId}
    {store : Store} (shows : Shows state.registry state.registry.scopes.size scope store)
    {node : Node} {replaced : Annotator} {first second : PUnit}
    (replacing : replaceScope scope state = .ok first replaced)
    (stamping : stamp node scope replaced = .ok second after) :
    InStep nodes owner after ((reading.overwrite store).stamp node store) := by
  obtain ⟨mirrors, same⟩ := inStep.replace shows replacing
  rw [← same] at shows
  exact (mirrors.settle.stamp shows stamping).1.settle

/-- A parameter of an arrow function. -/
theorem bindArrowParameter_inStep (inStep : InStep nodes owner state reading)
    {id child : ScopeId} {store : Store}
    (shows : Shows state.registry state.registry.scopes.size id store) {entry : Node × Nat}
    (ended : bindArrowParameter id entry state = .ok child after) :
    InStep nodes owner after reading ∧ Shows after.registry after.registry.scopes.size child
      (Dictionary.bindParameter store entry) := by
  unfold bindArrowParameter at ended
  unfold Dictionary.bindParameter
  simp only at ended ⊢
  split at ended
  · rename_i named
    rw [if_pos named]
    exact bindVariable_inStep inStep shows rfl trivial ended
  · rename_i unnamed
    rw [if_neg unnamed]
    obtain ⟨rfl, rfl⟩ := pure_eq_ok.1 ended
    exact ⟨inStep, shows⟩

end Binding

section Entries

/-- The entry of a function is being filled: it shows a dictionary, and all
scopes that the run keeps are older. The function stands in the scope `outer`. -/
structure Filling (nodes : List Node) (owner outer entry : ScopeId) (store : Store)
    (state : Annotator) (reading : State) : Prop where
  mirrors : Mirrors nodes owner entry state reading
  outside : Shows state.registry entry outer reading.top
  shows : Shows state.registry state.registry.scopes.size entry store

variable {outer entry : ScopeId} {store : Store}

/-- A fresh entry shows the superglobals, with which the dictionary of a body begins. -/
theorem Filling.start (inStep : InStep nodes owner state reading)
    (shows : Shows state.registry state.registry.scopes.size outer reading.top)
    {registry : Registry Node}
    (opens : Opens nodes owner state.registry registry entry (superglobals owner).find?)
    (fresh : state.registry.scopes.size <= entry) :
    Filling nodes owner outer entry (superglobals owner) { state with registry := registry }
      reading where
  mirrors := (inStep.keep (Nat.le_refl _) opens.advances).raise fresh (Nat.le_of_lt opens.bound)
  outside := (shows.keep (Nat.le_refl _) opens.advances).raise fresh
  shows := Shows.of_opens opens fun _ => rfl

/-- A body that is being filled is in step with the reading around it. -/
theorem Filling.settle (filling : Filling nodes owner outer entry store state reading) :
    InStep nodes owner state reading :=
  filling.mirrors.settle

/-- A variable that is bound on the entry is bound in the dictionary. -/
theorem Filling.bind (filling : Filling nodes owner outer entry store state reading)
    {name : String} {binding : Binding Node} (live : Binding.live (some binding) = some binding)
    (suits : binding.Suits nodes name)
    {done : PUnit} (ended : onRegistry (bindOnEntry entry name binding) state = .ok done after) :
    Filling nodes owner outer entry (store.insert name binding) after reading := by
  obtain ⟨registry, bound, rfl⟩ := onRegistry_eq_ok.1 ended
  obtain ⟨advances, visible⟩ := filling.mirrors.sound.bindOnEntry suits bound
  refine ⟨filling.mirrors.keep (Nat.le_refl _) advances,
    filling.outside.keep (Nat.le_refl _) advances, ?_, fun other => ?_⟩
  · exact Nat.lt_of_lt_of_le filling.shows.1 advances.size_le
  · rw [visible other]
    exact filling.shows.insert live other

/-- The parameters of a declaration are bound on the entry as in the dictionary. -/
theorem Filling.parameters (filling : Filling nodes owner outer entry store state reading)
    {declaration : Node} {done : PUnit}
    (ended : Annotation.bindParameters entry declaration state = .ok done after) :
    Filling nodes owner outer entry (Dictionary.bindParameters store declaration) after
      reading := by
  refine forM_beside (fun current held => Filling nodes owner outer entry held current reading) ?_
    filling ended
  rintro ⟨parameter, index⟩ - current held later kept bound
  unfold Dictionary.bindParameter
  simp only at bound
  split at bound
  · rename_i named
    rw [if_pos named]
    exact kept.bind rfl trivial bound
  · rename_i unnamed
    rw [if_neg unnamed]
    obtain ⟨-, rfl⟩ := pure_eq_ok.1 bound
    exact kept

/-- A captured variable takes the binding that it has outside. -/
theorem Filling.capture (filling : Filling nodes owner outer entry store state reading)
    {captured : Node} {done : PUnit}
    (ended : captureVariable outer entry captured state = .ok done after) :
    Filling nodes owner outer entry (Dictionary.capture (reading, store) captured).2 after
      (Dictionary.capture (reading, store) captured).1 := by
  obtain ⟨_, stamped, stamping, rest⟩ := bind_eq_ok.1 ended
  obtain ⟨mirrors, same⟩ := filling.mirrors.stamp filling.outside stamping
  have filling : Filling nodes owner outer entry store stamped (reading.stampHere captured) := by
    refine ⟨mirrors, filling.outside.of_scopes_eq same, ?_⟩
    rw [same]
    exact filling.shows.of_scopes_eq same
  obtain ⟨_, _, got, rest⟩ := bind_eq_ok.1 rest
  obtain ⟨rfl, rfl⟩ := get_eq_ok.1 got
  rw [Registry.resolveVariable_eq, filling.outside.2] at rest
  unfold Dictionary.capture
  cases found : reading.top.find? captured.text with
  | some binding =>
      rw [State.top_stampHere, found] at rest
      refine filling.bind (filling.outside.live found) ?_ rest
      exact filling.mirrors.sound.suits_of_visible ((filling.outside.2 _).trans found)
  | none =>
      rw [State.top_stampHere, found] at rest
      obtain rfl := modify_eq_ok.1 rest
      refine ⟨filling.mirrors.keep (Nat.le_refl _) ?_, filling.outside.of_scopes_eq rfl,
        filling.shows.of_scopes_eq rfl⟩
      exact (Advances.refl filling.mirrors.sound _).write _

/-- Captured variables are taken from the outer scope as from the outer dictionary. -/
theorem Filling.captures (filling : Filling nodes owner outer entry store state reading)
    {chosen : List Node} {done : PUnit}
    (ended : chosen.forM (captureVariable outer entry) state = .ok done after) :
    Filling nodes owner outer entry (chosen.foldl Dictionary.capture (reading, store)).2 after
      (chosen.foldl Dictionary.capture (reading, store)).1 := by
  have started : Filling nodes owner outer entry (reading, store).2 state (reading, store).1 :=
    filling
  refine forM_beside
    (fun current (progress : State × Store) =>
      Filling nodes owner outer entry progress.2 current progress.1)
    ?_ started ended
  intro captured _ current progress later kept captures
  exact kept.capture captures

end Entries

section Rules

variable {visit : Node -> Annotating Unit} {read : Reading}
  (closed : forall node, node ∈ nodes -> forall part, part ∈ walkedParts node -> part ∈ nodes)
  (parts : forall part, part ∈ nodes -> Follows nodes owner (visit part) (read part))
  {node : Node} (member : node ∈ nodes)

include closed parts member

omit parts in
/-- Where all children are walked, each of them is one of the nodes in question. -/
theorem mem_of_walksAll (all : walksAll node = true) {part : Node}
    (inside : part ∈ node.namedChildren) : part ∈ nodes :=
  closed node member part (walkedParts_of_walksAll all ▸ inside)

theorem visitChildren_follows (all : walksAll node = true) :
    Follows nodes owner (visitChildren visit node) (readChildren read node) := by
  intro state reading after inStep ended
  refine forM_beside (fun current read => InStep nodes owner current read) ?_ inStep ended
  intro part inside current reading later kept visited
  have partMember := mem_of_walksAll closed member all inside
  exact parts part partMember current reading later kept visited

/-- A labelled part is visited where the reading reads it. -/
theorem visitPart_follows {label : String}
    (walked : forall part, node.child? label = some part -> part ∈ walkedParts node) :
    Follows nodes owner (visitPart visit node label) fun reading =>
      readPart read node reading label := by
  intro state reading after inStep ended
  unfold visitPart at ended
  unfold readPart
  cases found : node.child? label with
  | some part =>
      rw [found] at ended
      have partMember := closed node member part (walked part found)
      exact parts part partMember state reading after inStep ended
  | none =>
      rw [found] at ended
      obtain ⟨-, rfl⟩ := pure_eq_ok.1 ended
      exact inStep

/-- The parts of a body are visited inside its scope and read with its dictionary. -/
theorem visitInside_inStep {scope : ScopeId} {store : Store} {labels : List String}
    (walked : forall label, label ∈ labels -> forall part, node.child? label = some part ->
      part ∈ walkedParts node)
    (inStep : InStep nodes owner state reading)
    (shows : Shows state.registry state.registry.scopes.size scope store)
    (ended : visitInside visit node scope labels state = .ok ⟨⟩ after) :
    InStep nodes owner after (readInside read node store labels reading) := by
  obtain ⟨_, stamped, stamping, rest⟩ := bind_eq_ok.1 ended
  obtain ⟨_, entered, entering, rest⟩ := bind_eq_ok.1 rest
  obtain ⟨_, visited, visiting, rest⟩ := bind_eq_ok.1 rest
  obtain ⟨_, left, leaving, rest⟩ := bind_eq_ok.1 rest
  obtain ⟨-, rfl⟩ := pure_eq_ok.1 rest
  obtain ⟨mirrors, same⟩ := inStep.stamp shows stamping
  have inside := (mirrors.push (shows.of_scopes_eq same) entering).settle
  have walked := forM_beside (fun current read => InStep nodes owner current read)
    (fun label listed current reading later kept visited =>
      visitPart_follows closed parts member (walked label listed) current reading later kept
        visited)
    inside visiting
  exact (walked.pop leaving).1.settle

omit closed parts member in
/-- A namespace begins with the superglobals, one without a name with what stands around it. -/
theorem enterNamespaceOf_follows :
    Follows nodes owner (enterNamespaceOf node) (Dictionary.enterNamespace owner node) := by
  intro state reading after inStep ended
  obtain ⟨here, _, located, rest⟩ := bind_eq_ok.1 ended
  obtain ⟨rfl, shows⟩ := inStep.current located
  -- whatever scope is entered, it is stamped and pushed
  have enter : forall scope store (opened : Annotator), InStep nodes owner opened reading ->
      Shows opened.registry opened.registry.scopes.size scope store ->
      (do stamp node scope; pushScope scope) opened = .ok ⟨⟩ after ->
      InStep nodes owner after ((reading.stamp node store).enter store) := by
    intro scope store opened inStep shows steps
    obtain ⟨_, stamped, stamping, entering⟩ := bind_eq_ok.1 steps
    obtain ⟨mirrors, same⟩ := inStep.stamp shows stamping
    exact (mirrors.push (shows.of_scopes_eq same) entering).settle
  unfold Dictionary.enterNamespace
  cases found : node.child? "name" with
  | some name =>
      rw [found] at rest
      obtain ⟨scope, opened, opening, steps⟩ := bind_eq_ok.1 rest
      obtain ⟨registry, declared, rfl⟩ := onRegistry_eq_ok.1 opening
      obtain ⟨inStep, shows⟩ := inStep.opened (superglobals owner)
        (inStep.sound.declareNamespace shows.1 declared) fun _ => rfl
      exact enter scope _ _ inStep shows steps
  | none =>
      rw [found] at rest
      exact enter here _ _ inStep shows rest

omit closed parts member in
/-- Leaving a namespace leaves its dictionary. -/
theorem leaveNamespace_follows : Follows nodes owner leaveNamespace State.leave := by
  intro state reading after inStep ended
  obtain ⟨scope, left, leaving, rest⟩ := bind_eq_ok.1 ended
  have inStep := (inStep.pop leaving).1.settle
  obtain ⟨_, _, got, ending⟩ := bind_eq_ok.1 rest
  obtain ⟨rfl, rfl⟩ := get_eq_ok.1 got
  obtain ⟨registry, recorded, rfl⟩ := onRegistry_eq_ok.1 ending
  rw [inStep.owned] at recorded
  exact inStep.advance (inStep.sound.recordProgramEnd recorded)

/-- A statement leaves a namespace open exactly if the reading does. -/
theorem visitStatement_follows (all : walksAll node = true) {statement : Node}
    (inside : statement ∈ node.namedChildren) {progress : State × Bool} {flag next : Bool}
    (inStep : InStep nodes owner state progress.1)
    (flagEq : flag = progress.2)
    (ended : visitStatement visit flag statement state = .ok next after) :
    InStep nodes owner after (readStatement owner read progress statement).1 ∧
      next = (readStatement owner read progress statement).2 := by
  subst flagEq
  unfold visitStatement at ended
  unfold readStatement
  by_cases opens : opensNamespace statement = true
  · rw [if_pos opens] at ended ⊢
    obtain ⟨reading, isOpen⟩ := progress
    cases isOpen with
    | true =>
        obtain ⟨_, left, leaving, rest⟩ := bind_eq_ok.1 ended
        obtain ⟨_, entered, entering, rest⟩ := bind_eq_ok.1 rest
        obtain ⟨rfl, rfl⟩ := pure_eq_ok.1 rest
        have outside := leaveNamespace_follows _ _ _ inStep leaving
        exact ⟨enterNamespaceOf_follows _ _ _ outside entering, rfl⟩
    | false =>
        obtain ⟨_, entered, entering, rest⟩ := bind_eq_ok.1 ended
        obtain ⟨rfl, rfl⟩ := pure_eq_ok.1 rest
        exact ⟨enterNamespaceOf_follows _ _ _ inStep entering, rfl⟩
  · rw [if_neg opens] at ended ⊢
    obtain ⟨_, visited, visiting, rest⟩ := bind_eq_ok.1 ended
    obtain ⟨rfl, rfl⟩ := pure_eq_ok.1 rest
    have statementMember := mem_of_walksAll closed member all inside
    exact ⟨parts statement statementMember _ _ _ inStep visiting, rfl⟩

/-- A program is followed statement by statement. -/
theorem visitProgram_follows (all : walksAll node = true) :
    Follows nodes owner (visitProgram visit node) (readProgram owner read node) := by
  intro state reading after inStep ended
  obtain ⟨_, stamped, stamping, rest⟩ := bind_eq_ok.1 ended
  obtain ⟨isOpen, walked, walking, rest⟩ := bind_eq_ok.1 rest
  have started : InStep nodes owner stamped (reading.stampHere node, false).1 ∧
      false = (reading.stampHere node, false).2 :=
    ⟨inStep.stampHere stamping, rfl⟩
  have through := foldlM_beside
    (fun flag (current : Annotator) (progress : State × Bool) =>
      InStep nodes owner current progress.1 ∧ flag = progress.2)
    (fun statement inside flag current progress next later kept visited =>
      visitStatement_follows closed parts member all inside kept.1 kept.2 visited)
    started walking
  obtain ⟨inStep, flag⟩ := through
  unfold readProgram
  simp only [← flag]
  cases isOpen with
  | true => exact leaveNamespace_follows _ _ _ inStep rest
  | false =>
      obtain ⟨-, rfl⟩ := pure_eq_ok.1 rest
      exact inStep

theorem visitNamespace_follows (isNamespace : node.construct = .namespaceDefinition) :
    Follows nodes owner (visitNamespace visit node) (readNamespace owner read node) := by
  intro state reading after inStep ended
  obtain ⟨_, entered, entering, rest⟩ := bind_eq_ok.1 ended
  obtain ⟨_, visited, visiting, leaving⟩ := bind_eq_ok.1 rest
  have inside := enterNamespaceOf_follows _ _ _ inStep entering
  have bodyWalked : forall part, node.child? "body" = some part -> part ∈ walkedParts node := by
    intro part found
    simp [walkedParts, isNamespace, found]
  have walked := visitPart_follows closed parts member bodyWalked _ _ _ inside visiting
  exact leaveNamespace_follows _ _ _ walked leaving

omit closed parts member in
/-- The parameters and the body of a function are walked. -/
theorem walked_of_function
    (isFunction : node.construct = .functionDefinition ∨ node.construct = .methodDeclaration ∨
      node.construct = .closure ∨ node.construct = .arrowFunction) (label : String)
    (listed : label ∈ ["parameters", "body"]) (part : Node)
    (found : node.child? label = some part) : part ∈ walkedParts node := by
  have walked : walkedParts node =
      (node.child? "parameters").toList ++ (node.child? "body").toList := by
    unfold walkedParts
    rcases isFunction with same | same | same | same <;> rw [same]
  rw [walked, List.mem_append]
  rcases List.mem_cons.1 listed with rfl | later
  · exact Or.inl (Option.mem_toList.2 found)
  · cases List.mem_singleton.1 later
    exact Or.inr (Option.mem_toList.2 found)

/-- A function sees its parameters and the superglobals, as the reading says. -/
theorem visitFunction_follows (isFunction : node.construct = .functionDefinition) :
    Follows nodes owner (visitFunction visit node) (readFunction owner read node) := by
  intro state reading after inStep ended
  obtain ⟨here, _, located, rest⟩ := bind_eq_ok.1 ended
  obtain ⟨rfl, shows⟩ := inStep.current located
  obtain ⟨entry, _, declaring, rest⟩ := bind_eq_ok.1 rest
  obtain ⟨registry, declared, rfl⟩ := onRegistry_eq_ok.1 declaring
  obtain ⟨_, _, binding, visiting⟩ := bind_eq_ok.1 rest
  obtain ⟨opens, fresh⟩ :=
    inStep.sound.declareFunction shows.1 member (Or.inl isFunction) declared
  have filled := (Filling.start inStep shows opens fresh).parameters binding
  exact visitInside_inStep closed parts member (walked_of_function (Or.inl isFunction))
    filled.settle filled.shows visiting

theorem visitMethod_follows (isMethod : node.construct = .methodDeclaration) :
    Follows nodes owner (visitMethod visit node) (readMethod owner read node) := by
  intro state reading after inStep ended
  obtain ⟨here, _, located, rest⟩ := bind_eq_ok.1 ended
  obtain ⟨rfl, shows⟩ := inStep.current located
  obtain ⟨inClass, _, tested, rest⟩ := bind_eq_ok.1 rest
  obtain ⟨_, _, got, tested⟩ := bind_eq_ok.1 tested
  obtain ⟨rfl, rfl⟩ := get_eq_ok.1 got
  obtain ⟨classEq, rfl⟩ := pure_eq_ok.1 tested
  -- declared or not, the entry is filled in the same way
  have fill : forall entry registry, Opens nodes owner state.registry registry entry
        (superglobals owner).find? -> state.registry.scopes.size <= entry ->
      (do
        Annotation.bindParameters entry node
        onRegistry (bindOnEntry entry "$this" (.parameter "$this" node (-1)))
        visitInside visit node entry ["parameters", "body"]) { state with registry := registry } =
          .ok ⟨⟩ after ->
      InStep nodes owner after (readMethod owner read node reading) := by
    intro entry registry opens fresh steps
    obtain ⟨_, _, binding, rest⟩ := bind_eq_ok.1 steps
    obtain ⟨_, _, instancing, visiting⟩ := bind_eq_ok.1 rest
    have filled := (Filling.start inStep shows opens fresh).parameters binding
    have complete := filled.bind rfl (by trivial) instancing
    exact visitInside_inStep closed parts member
      (walked_of_function (Or.inr (Or.inl isMethod))) complete.settle complete.shows visiting
  cases inClass with
  | true =>
      obtain ⟨entry, _, declaring, rest⟩ := bind_eq_ok.1 rest
      obtain ⟨registry, declared, rfl⟩ := onRegistry_eq_ok.1 declaring
      obtain ⟨members, found⟩ := Option.isSome_iff_exists.1 classEq
      obtain ⟨scope, present, isClass⟩ := Option.bind_eq_some_iff.1 found
      have kind : ∃ scope, state.registry.scope? here = some scope ∧
          scope.body.members?.isSome = true := ⟨scope, present, by rw [isClass]; rfl⟩
      obtain ⟨opens, fresh⟩ :=
        inStep.sound.declareFunction shows.1 member (Or.inr kind) declared
      exact fill entry registry opens fresh rest
  | false =>
      obtain ⟨entry, _, opening, rest⟩ := bind_eq_ok.1 rest
      obtain ⟨registry, opened, rfl⟩ := onRegistry_eq_ok.1 opening
      obtain ⟨opens, fresh⟩ := inStep.sound.openFunction shows.1 opened
      exact fill entry registry opens (Nat.le_of_eq fresh.symm) rest

/-- A closure sees its parameters and what it captures, as the reading says. -/
theorem visitClosure_follows (isClosure : node.construct = .closure) :
    Follows nodes owner (visitClosure visit node) (readClosure owner read node) := by
  intro state reading after inStep ended
  obtain ⟨here, _, located, rest⟩ := bind_eq_ok.1 ended
  obtain ⟨rfl, shows⟩ := inStep.current located
  obtain ⟨entry, _, opening, rest⟩ := bind_eq_ok.1 rest
  obtain ⟨registry, opened, rfl⟩ := onRegistry_eq_ok.1 opening
  obtain ⟨_, bound, binding, rest⟩ := bind_eq_ok.1 rest
  obtain ⟨_, _, capturing, visiting⟩ := bind_eq_ok.1 rest
  obtain ⟨opens, fresh⟩ := inStep.sound.openFunction shows.1 opened
  have filled := (Filling.start inStep shows opens (Nat.le_of_eq fresh.symm)).parameters binding
  have complete := filled.captures capturing
  exact visitInside_inStep closed parts member
    (walked_of_function (Or.inr (Or.inr (Or.inl isClosure)))) complete.settle complete.shows visiting

/-- An arrow function sees what stands around it and its parameters, as the reading says. -/
theorem visitArrowFunction_follows (isArrowFunction : node.construct = .arrowFunction) :
    Follows nodes owner (visitArrowFunction visit node) (readArrowFunction read node) := by
  intro state reading after inStep ended
  obtain ⟨here, _, located, rest⟩ := bind_eq_ok.1 ended
  obtain ⟨rfl, shows⟩ := inStep.current located
  obtain ⟨scope, bound, binding, visiting⟩ := bind_eq_ok.1 rest
  have through : InStep nodes owner bound reading ∧ Shows bound.registry
      bound.registry.scopes.size scope (Dictionary.bindParameters reading.top node) := by
    refine foldlM_beside
      (fun scope (current : Annotator) held => InStep nodes owner current reading ∧
        Shows current.registry current.registry.scopes.size scope held)
      ?_ ⟨inStep, shows⟩ binding
    intro entry _ scope current held next later kept bound
    exact bindArrowParameter_inStep kept.1 kept.2 bound
  exact visitInside_inStep closed parts member
    (walked_of_function (Or.inr (Or.inr (Or.inr isArrowFunction)))) through.1 through.2 visiting

/-- A class body begins without any variables, as the reading says. -/
theorem visitClass_follows (isClass : node.construct = .classDeclaration) :
    Follows nodes owner (visitClass visit node) (readClass read node) := by
  intro state reading after inStep ended
  obtain ⟨here, _, located, rest⟩ := bind_eq_ok.1 ended
  obtain ⟨rfl, shows⟩ := inStep.current located
  obtain ⟨scope, _, declaring, visiting⟩ := bind_eq_ok.1 rest
  obtain ⟨registry, declared, rfl⟩ := onRegistry_eq_ok.1 declaring
  obtain ⟨inside, shows⟩ :=
    inStep.opened ∅ (inStep.sound.declareClass shows.1 declared) fun _ => rfl
  refine visitInside_inStep closed parts member ?_ inside shows visiting
  intro label listed part found
  cases List.mem_singleton.1 listed
  simp [walkedParts, isClass, found]

omit closed member in
/-- The declaration of a property changes no variable. -/
theorem visitPropertyPart_follows {here : ScopeId} {element : Node} (part : Node)
    (partMember : part ∈ nodes) :
    Follows nodes owner (visitPropertyPart visit here element part) (read part) := by
  intro state reading after inStep ended
  unfold visitPropertyPart at ended
  split at ended
  · obtain ⟨inClass, _, tested, rest⟩ := bind_eq_ok.1 ended
    obtain ⟨_, _, got, tested⟩ := bind_eq_ok.1 tested
    obtain ⟨rfl, rfl⟩ := get_eq_ok.1 got
    obtain ⟨-, rfl⟩ := pure_eq_ok.1 tested
    split at rest
    · obtain ⟨_, _, declaring, visiting⟩ := bind_eq_ok.1 rest
      obtain ⟨registry, declared, rfl⟩ := onRegistry_eq_ok.1 declaring
      exact parts part partMember _ _ _
        (inStep.advance (inStep.sound.declareProperty declared)) visiting
    · exact parts part partMember _ _ _ inStep rest
  · exact parts part partMember _ _ _ inStep ended

theorem visitProperty_follows (all : walksAll node = true) :
    Follows nodes owner (visitProperty visit node) (readProperty read node) := by
  intro state reading after inStep ended
  obtain ⟨here, _, located, rest⟩ := bind_eq_ok.1 ended
  obtain ⟨rfl, -⟩ := inStep.current located
  obtain ⟨_, stamped, stamping, visiting⟩ := bind_eq_ok.1 rest
  refine forM_beside (fun current read => InStep nodes owner current read) ?_
    (inStep.stampHere stamping) visiting
  intro element inside current reading later kept visited
  have elementMember := mem_of_walksAll closed member all inside
  unfold visitPropertyElement at visited
  unfold readPropertyElement
  split at visited
  · rename_i isElement
    rw [if_pos isElement]
    obtain ⟨_, stamped, stamping, visiting⟩ := bind_eq_ok.1 visited
    refine forM_beside (fun current read => InStep nodes owner current read) ?_
      (kept.stampHere stamping) visiting
    intro part partInside current reading later kept visited
    have plain : walksAll element = true := by
      rw [walksAll, Node.construct, isElement]
      rfl
    have partMember := mem_of_walksAll closed elementMember plain partInside
    exact visitPropertyPart_follows parts part partMember _ _ _ kept visited
  · rename_i other
    rw [if_neg other]
    exact parts element elementMember _ _ _ kept visited

/-- The declaration of constants changes no variable. -/
theorem visitConstants_follows (all : walksAll node = true) :
    Follows nodes owner (visitConstants visit node) (readPlain read node) := by
  intro state reading after inStep ended
  obtain ⟨_, stamped, stamping, visiting⟩ := bind_eq_ok.1 ended
  refine forM_beside (fun current read => InStep nodes owner current read) ?_
    (inStep.stampHere stamping) visiting
  intro element inside current reading later kept visited
  have elementMember := mem_of_walksAll closed member all inside
  have visiting : forall middle, InStep nodes owner middle reading ->
      visit element middle = .ok ⟨⟩ later -> InStep nodes owner later (read element reading) :=
    fun middle kept visited => parts element elementMember _ _ _ kept visited
  unfold visitConstantElement at visited
  split at visited
  · cases first : element.namedChildren.head? with
    | some name =>
        rw [first] at visited
        simp only at visited
        split at visited
        · obtain ⟨here, _, located, rest⟩ := bind_eq_ok.1 visited
          obtain ⟨rfl, -⟩ := kept.current located
          obtain ⟨_, _, declaring, rest⟩ := bind_eq_ok.1 rest
          obtain ⟨registry, declared, rfl⟩ := onRegistry_eq_ok.1 declaring
          exact visiting _ (kept.advance (kept.sound.declareConstant declared)) rest
        · exact visiting _ kept visited
    | none =>
        rw [first] at visited
        exact visiting _ kept visited
  · exact visiting _ kept visited

omit closed parts member in
/-- One name of a global declaration. -/
theorem bindGlobalName_inStep (inStep : InStep nodes owner state reading) {id next : ScopeId}
    {store : Store} (shows : Shows state.registry state.registry.scopes.size id store)
    {child : Node} (ended : bindGlobalName node id child state = .ok next after) :
    InStep nodes owner after (readGlobalName owner node (reading, store) child).1 ∧
      Shows after.registry after.registry.scopes.size next
        (readGlobalName owner node (reading, store) child).2 := by
  obtain ⟨_, stamped, stamping, rest⟩ := bind_eq_ok.1 ended
  obtain ⟨mirrors, same⟩ := inStep.stamp shows stamping
  have inStep := mirrors.settle
  have shows : Shows stamped.registry stamped.registry.scopes.size id store := by
    rw [same]
    exact shows.of_scopes_eq same
  unfold readGlobalName
  simp only
  split at rest
  · rename_i named
    rw [if_pos named]
    obtain ⟨registry, bound, rfl⟩ := onRegistry_eq_ok.1 rest
    exact inStep.opened _ (inStep.sound.bindByReference shows.1 bound) (shows.insert rfl)
  · rename_i dynamic
    rw [if_neg dynamic]
    obtain ⟨_, noted, noting, answered⟩ := bind_eq_ok.1 rest
    obtain ⟨rfl, rfl⟩ := pure_eq_ok.1 answered
    refine ⟨inStep.remark noting, ?_⟩
    obtain rfl := modify_eq_ok.1 noting
    exact shows.of_scopes_eq rfl

omit closed parts member in
/-- A `global` statement binds its names by reference, as the reading says. -/
theorem visitGlobal_follows : Follows nodes owner (visitGlobal node) (readGlobal owner node) := by
  intro state reading after inStep ended
  obtain ⟨here, _, located, rest⟩ := bind_eq_ok.1 ended
  obtain ⟨rfl, shows⟩ := inStep.current located
  obtain ⟨scope, bound, binding, rest⟩ := bind_eq_ok.1 rest
  obtain ⟨_, replaced, replacing, stamping⟩ := bind_eq_ok.1 rest
  have started : InStep nodes owner state (reading, reading.top).1 ∧
      Shows state.registry state.registry.scopes.size here (reading, reading.top).2 :=
    ⟨inStep, shows⟩
  have through : InStep nodes owner bound
        (node.namedChildren.foldl (readGlobalName owner node) (reading, reading.top)).1 ∧
      Shows bound.registry bound.registry.scopes.size scope
        (node.namedChildren.foldl (readGlobalName owner node) (reading, reading.top)).2 := by
    refine foldlM_beside
      (fun scope (current : Annotator) (progress : State × Store) =>
        InStep nodes owner current progress.1 ∧
          Shows current.registry current.registry.scopes.size scope progress.2)
      ?_ started binding
    intro child _ scope current progress next later kept bound
    exact bindGlobalName_inStep kept.1 kept.2 bound
  exact finish_inStep through.1 through.2 replacing stamping

omit closed parts member in
/-- One name of an unset statement. -/
theorem unbindName_inStep (inStep : InStep nodes owner state reading) {id next : ScopeId}
    {store : Store} (shows : Shows state.registry state.registry.scopes.size id store)
    {child : Node} (ended : unbindName id child state = .ok next after) :
    InStep nodes owner after reading ∧
      Shows after.registry after.registry.scopes.size next (unsetName store child) := by
  unfold unbindName at ended
  unfold unsetName
  split at ended
  · rename_i named
    rw [if_pos named]
    obtain ⟨registry, unbound, rfl⟩ := onRegistry_eq_ok.1 ended
    refine inStep.opened _ (inStep.sound.bindVariable (by trivial) unbound) ?_
    intro name
    rw [forget, Table.find?_filter_ne, shows.2]
    rfl
  · rename_i other
    rw [if_neg other]
    obtain ⟨rfl, rfl⟩ := pure_eq_ok.1 ended
    exact ⟨inStep, shows⟩

/-- An `unset` removes its variables from the dictionary. -/
theorem visitUnset_follows (all : walksAll node = true) :
    Follows nodes owner (visitUnset visit node) (readUnset read node) := by
  intro state reading after inStep ended
  obtain ⟨_, visited, visiting, rest⟩ := bind_eq_ok.1 ended
  have inStep := visitChildren_follows closed parts member all _ _ _ inStep visiting
  obtain ⟨here, _, located, rest⟩ := bind_eq_ok.1 rest
  obtain ⟨rfl, shows⟩ := inStep.current located
  obtain ⟨scope, unbound, unbinding, rest⟩ := bind_eq_ok.1 rest
  obtain ⟨_, replaced, replacing, stamping⟩ := bind_eq_ok.1 rest
  have through : InStep nodes owner unbound (readChildren read node reading) ∧
      Shows unbound.registry unbound.registry.scopes.size scope
        (node.namedChildren.foldl unsetName (readChildren read node reading).top) := by
    refine foldlM_beside
      (fun scope (current : Annotator) held =>
        InStep nodes owner current (readChildren read node reading) ∧
          Shows current.registry current.registry.scopes.size scope held)
      ?_ ⟨inStep, shows⟩ unbinding
    intro child _ scope current held next later kept unbound
    exact unbindName_inStep kept.1 kept.2 unbound
  exact finish_inStep through.1 through.2 replacing stamping

/-- An assignment binds its targets after its right side was visited, as the reading says. -/
theorem visitAssignment_follows (isAssignment : node.construct = .assignment) :
    Follows nodes owner (visitAssignment visit node) (readAssignment read node) := by
  intro state reading after inStep ended
  obtain ⟨_, evaluated, evaluating, rest⟩ := bind_eq_ok.1 ended
  have walked : forall label, label = "right" ∨ label = "left" -> forall part,
      node.child? label = some part -> part ∈ walkedParts node := by
    rintro label (rfl | rfl) part found <;> simp [walkedParts, isAssignment, found]
  have inStep :=
    visitPart_follows closed parts member (walked _ (Or.inl rfl)) _ _ _ inStep evaluating
  obtain ⟨_, visited, visiting, rest⟩ := bind_eq_ok.1 rest
  have inStep :=
    visitPart_follows closed parts member (walked _ (Or.inr rfl)) _ _ _ inStep visiting
  obtain ⟨here, _, located, rest⟩ := bind_eq_ok.1 rest
  obtain ⟨rfl, shows⟩ := inStep.current located
  have names : forall target, target ∈ assigned node -> target.text ∈ node.definedNames := by
    intro target inside
    unfold Node.definedNames
    rw [isAssignment]
    unfold assigned at inside
    cases found : node.child? "left" with
    | some left =>
        rw [found] at inside
        exact List.mem_map_of_mem inside
    | none =>
        rw [found] at inside
        cases inside
  -- with or without a remark, the targets are bound last
  have bind : forall middle, InStep nodes owner middle
        (readPart read node (readPart read node reading "right") "left") ->
      Shows middle.registry middle.registry.scopes.size here
        (readPart read node (readPart read node reading "right") "left").top ->
      (do
        let scope ← bindTargets node (assigned node) here
        replaceScope scope
        stamp node scope) middle = .ok ⟨⟩ after ->
      InStep nodes owner after (readAssignment read node reading) := by
    intro middle kept shows steps
    obtain ⟨scope, bound, binding, rest⟩ := bind_eq_ok.1 steps
    obtain ⟨_, replaced, replacing, stamping⟩ := bind_eq_ok.1 rest
    obtain ⟨kept, shows⟩ := bindTargets_inStep kept shows member names binding
    exact finish_inStep kept shows replacing stamping
  cases found : node.child? "left" with
  | none =>
      rw [found] at rest
      refine bind _ inStep shows ?_
      rw [assigned, found]
      exact rest
  | some left =>
      rw [found] at rest
      simp only at rest
      rw [assigned, found] at bind
      split at rest
      · obtain ⟨_, noted, noting, rest⟩ := bind_eq_ok.1 rest
        refine bind noted (inStep.remark noting) ?_ rest
        obtain rfl := modify_eq_ok.1 noting
        exact shows.of_scopes_eq rfl
      · exact bind _ inStep shows rest

/-- A loop binds its variables before its body is visited, as the reading says. -/
theorem visitIteration_follows (isIteration : node.construct = .iteration) :
    Follows nodes owner (visitIteration visit node) (readIteration read node) := by
  intro state reading after inStep ended
  obtain ⟨_, stamped, stamping, rest⟩ := bind_eq_ok.1 ended
  have inStep := inStep.stampHere stamping
  have all : walksAll node = true := by rw [walksAll, isIteration]
  have partMember : forall part, part ∈ node.namedChildren -> part ∈ nodes := fun _ inside =>
    mem_of_walksAll closed member all inside
  have names : forall iterated binding body, node.namedChildren = iterated :: binding :: body ->
      forall target, target ∈ binding.targets -> target.text ∈ node.definedNames := by
    intro iterated binding body children target inside
    unfold Node.definedNames
    rw [isIteration, children]
    exact List.mem_map_of_mem inside
  unfold readIteration
  rcases children : node.namedChildren with _ | ⟨iterated, _ | ⟨binding, body⟩⟩
  · rw [children] at rest
    exact visitChildren_follows closed parts member all _ _ _ inStep rest
  · rw [children] at rest
    exact visitChildren_follows closed parts member all _ _ _ inStep rest
  · rw [children] at rest
    obtain ⟨_, iterating, visiting, rest⟩ := bind_eq_ok.1 rest
    have inStep := parts iterated (partMember _ (by simp [children])) _ _ _ inStep visiting
    obtain ⟨_, targeted, targeting, rest⟩ := bind_eq_ok.1 rest
    have inStep := parts binding (partMember _ (by simp [children])) _ _ _ inStep targeting
    obtain ⟨here, _, located, rest⟩ := bind_eq_ok.1 rest
    obtain ⟨rfl, shows⟩ := inStep.current located
    obtain ⟨scope, bound, bindingTargets, rest⟩ := bind_eq_ok.1 rest
    obtain ⟨_, replaced, replacing, walking⟩ := bind_eq_ok.1 rest
    obtain ⟨inStep, shows⟩ := bindTargets_inStep inStep shows member
      (names iterated binding body children) bindingTargets
    refine forM_beside (fun current read => InStep nodes owner current read) ?_
      (inStep.replace shows replacing).1.settle walking
    intro part inside current reading later kept visited
    exact parts part (partMember part (by simp [children, inside])) _ _ _ kept visited

/-- A static variable is bound after its value was visited, as the reading says. -/
theorem visitStaticVariable_follows (isStatic : node.construct = .staticVariable) :
    Follows nodes owner (visitStaticVariable visit node) (readStaticVariable read node) := by
  intro state reading after inStep ended
  obtain ⟨_, visited, visiting, rest⟩ := bind_eq_ok.1 ended
  have walked : forall part, node.child? "value" = some part -> part ∈ walkedParts node := by
    intro part found
    simp [walkedParts, isStatic, found]
  have inStep := visitPart_follows closed parts member walked _ _ _ inStep visiting
  obtain ⟨here, _, located, rest⟩ := bind_eq_ok.1 rest
  obtain ⟨rfl, shows⟩ := inStep.current located
  unfold readStaticVariable
  cases found : node.child? "name" with
  | none =>
      rw [found] at rest
      exact (inStep.stamp shows rest).1.settle
  | some name =>
      rw [found] at rest
      simp only at rest ⊢
      split at rest
      · rename_i named
        rw [if_pos named]
        obtain ⟨_, stamped, stamping, rest⟩ := bind_eq_ok.1 rest
        obtain ⟨bound, opened, opening, rest⟩ := bind_eq_ok.1 rest
        obtain ⟨_, replaced, replacing, stampingNode⟩ := bind_eq_ok.1 rest
        obtain ⟨mirrors, same⟩ := inStep.stamp shows stamping
        have shows : Shows stamped.registry stamped.registry.scopes.size here
            (readPart read node reading "value").top := by
          rw [same]
          exact shows.of_scopes_eq same
        obtain ⟨inStep, shows⟩ := bindVariable_inStep mirrors.settle shows rfl
          (by
            refine ⟨member, ?_⟩
            unfold Node.definedNames
            rw [isStatic, found]
            simp [named])
          opening
        exact finish_inStep inStep shows replacing stampingNode
      · rename_i dynamic
        rw [if_neg dynamic]
        exact (inStep.stamp shows rest).1.settle

/-- A call that defines a constant changes no variable. -/
theorem visitCall_follows (all : walksAll node = true) :
    Follows nodes owner (visitCall visit node) (readPlain read node) := by
  intro state reading after inStep ended
  obtain ⟨_, stamped, stamping, rest⟩ := bind_eq_ok.1 ended
  obtain ⟨_, visited, visiting, rest⟩ := bind_eq_ok.1 rest
  have inStep :=
    visitChildren_follows closed parts member all _ _ _ (inStep.stampHere stamping) visiting
  split at rest
  · cases found : definedConstant? node with
    | some literal =>
        rw [found] at rest
        obtain ⟨_, _, got, declaring⟩ := bind_eq_ok.1 rest
        obtain ⟨rfl, rfl⟩ := get_eq_ok.1 got
        obtain ⟨registry, declared, rfl⟩ := onRegistry_eq_ok.1 declaring
        exact inStep.advance (inStep.sound.declareConstant declared)
    | none =>
        rw [found] at rest
        obtain ⟨-, rfl⟩ := pure_eq_ok.1 rest
        exact inStep
  · obtain ⟨-, rfl⟩ := pure_eq_ok.1 rest
    exact inStep

/-- Every other construct is followed child by child. -/
theorem visitPlain_follows (all : walksAll node = true) :
    Follows nodes owner (visitPlain visit node) (readPlain read node) := by
  intro state reading after inStep ended
  have walk : forall middle, InStep nodes owner middle reading ->
      (do stampHere node; visitChildren visit node) middle = .ok ⟨⟩ after ->
      InStep nodes owner after (readPlain read node reading) := by
    intro middle kept steps
    obtain ⟨_, stamped, stamping, visiting⟩ := bind_eq_ok.1 steps
    exact visitChildren_follows closed parts member all _ _ _ (kept.stampHere stamping) visiting
  unfold visitPlain at ended
  simp only at ended
  split at ended
  · obtain ⟨_, noted, noting, rest⟩ := bind_eq_ok.1 ended
    exact walk noted (inStep.remark noting) rest
  · exact walk state inStep ended

/-- Every visiting rule keeps in step, if the visits of the parts do. -/
theorem visitNode_follows :
    Follows nodes owner (visitNode visit node) (readNode owner read node) := by
  intro state reading after inStep ended
  unfold visitNode at ended
  unfold readNode
  cases construct : node.construct with
  | program =>
      rw [construct] at ended
      have all : walksAll node = true := by rw [walksAll, construct]
      exact visitProgram_follows closed parts member all _ _ _ inStep ended
  | namespaceDefinition =>
      rw [construct] at ended
      exact visitNamespace_follows closed parts member construct _ _ _ inStep ended
  | functionDefinition =>
      rw [construct] at ended
      exact visitFunction_follows closed parts member construct _ _ _ inStep ended
  | methodDeclaration =>
      rw [construct] at ended
      exact visitMethod_follows closed parts member construct _ _ _ inStep ended
  | closure =>
      rw [construct] at ended
      exact visitClosure_follows closed parts member construct _ _ _ inStep ended
  | arrowFunction =>
      rw [construct] at ended
      exact visitArrowFunction_follows closed parts member construct _ _ _ inStep ended
  | classDeclaration =>
      rw [construct] at ended
      exact visitClass_follows closed parts member construct _ _ _ inStep ended
  | propertyDeclaration =>
      rw [construct] at ended
      have all : walksAll node = true := by rw [walksAll, construct]
      exact visitProperty_follows closed parts member all _ _ _ inStep ended
  | constantDeclaration =>
      rw [construct] at ended
      have all : walksAll node = true := by rw [walksAll, construct]
      exact visitConstants_follows closed parts member all _ _ _ inStep ended
  | globalDeclaration =>
      rw [construct] at ended
      exact visitGlobal_follows _ _ _ inStep ended
  | unset =>
      rw [construct] at ended
      have all : walksAll node = true := by rw [walksAll, construct]
      exact visitUnset_follows closed parts member all _ _ _ inStep ended
  | assignment =>
      rw [construct] at ended
      exact visitAssignment_follows closed parts member construct _ _ _ inStep ended
  | iteration =>
      rw [construct] at ended
      exact visitIteration_follows closed parts member construct _ _ _ inStep ended
  | staticVariable =>
      rw [construct] at ended
      exact visitStaticVariable_follows closed parts member construct _ _ _ inStep ended
  | call =>
      rw [construct] at ended
      have all : walksAll node = true := by rw [walksAll, construct]
      exact visitCall_follows closed parts member all _ _ _ inStep ended
  | plain =>
      rw [construct] at ended
      have all : walksAll node = true := by rw [walksAll, construct]
      exact visitPlain_follows closed parts member all _ _ _ inStep ended

end Rules

end PhpTaint.Annotation
