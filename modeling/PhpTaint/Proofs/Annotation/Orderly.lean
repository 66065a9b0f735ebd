import PhpTaint.Proofs.Annotation.Discipline

/-!
# The visiting rules keep the stack in order

For every visiting rule: with two visitors that end alike and keep the discipline
of the stack, both runs of the rule end alike and keep it. The scopes that a rule
opens before it enters them are followed by `Setting`, for the entry of a
function, and by `Forking`, for the bindings of a statement; `Between` says where
a file stands between two statements.
-/

namespace PhpTaint.Annotation

open Scopes Syntax Outcome

variable {owner : ScopeId} {before state : Annotator}

/-- An operation that the registry grows by. -/
theorem onRegistry_orderly {α : Type} {operation : Registering Node α}
    {result : α -> Registry Node -> Prop} (returned : Returned owner before state)
    (ends : Ends (operation state.registry)
      (fun value registry => Grows owner state.registry registry ∧ result value registry)
      (Refused owner)) :
    Orderly owner (onRegistry operation) (onRegistry operation) state
      fun value after => Returned owner before after ∧ result value after.registry := by
  refine ⟨rfl, ?_⟩
  unfold onRegistry
  cases outcome : operation state.registry with
  | ok value registry =>
      rw [outcome] at ends
      exact ⟨returned.registry ends.1, ends.2⟩
  | error fault registry =>
      rw [outcome] at ends
      exact ⟨ends.1, returned.owned, ends.2⟩

/-- An operation that answers with nothing. -/
theorem onRegistry_returns {operation : Registering Node Unit}
    (returned : Returned owner before state)
    (ends : Ends (operation state.registry)
      (fun _ registry => Grows owner state.registry registry) (Refused owner)) :
    Orderly owner (onRegistry operation) (onRegistry operation) state
      fun _ after => Returned owner before after := by
  have widened : Ends (operation state.registry)
      (fun _ registry => Grows owner state.registry registry ∧ True) (Refused owner) :=
    ends.mono fun _ _ grows => ⟨grows, trivial⟩
  exact (onRegistry_orderly returned widened).mono fun _ _ holds => holds.1

theorem remark_orderly (returned : Returned owner before state) (text : String) :
    Orderly owner (remark text) (remark text) state fun _ after => Returned owner before after :=
  ⟨rfl, returned.owned, returned.grows.of_scopes_eq rfl, returned.stack⟩

/-- A stamp leaves the stack of scopes as it is. -/
theorem stamp_orderly (returned : Returned owner before state) (node : Node) (scope : ScopeId) :
    Orderly owner (stamp node scope) (stamp node scope) state
      fun _ after => Returned owner before after := by
  refine Orderly.bind_get (onRegistry_returns returned ?_)
  rw [returned.owned]
  exact returned.grows.rooted.annotate node scope

/-- Recording the end of a program leaves the stack of scopes as it is. -/
theorem endProgram_orderly (returned : Returned owner before state) (scope : ScopeId) :
    Orderly owner (endProgram scope) (endProgram scope) state
      fun _ after => Returned owner before after := by
  refine Orderly.bind_get (onRegistry_returns returned ?_)
  rw [returned.owned]
  exact returned.grows.rooted.recordProgramEnd scope

/-- The current scope is the top of the stack. -/
theorem currentScope_eq {top : ScopeId} {outer : List ScopeId} (stack : state.stack = top :: outer) :
    currentScope state = .ok top state := by
  refine bind_eq_ok.2 ⟨state, state, get_eq_ok.2 ⟨rfl, rfl⟩, ?_⟩
  rw [stack]
  rfl

/-- A node can be stamped wherever there is a current scope. -/
theorem stampHere_orderly (returned : Returned owner before state)
    (standing : Standing owner state) (node : Node) :
    Orderly owner (stampHere node) (stampHere node) state
      fun _ after => Returned owner before after := by
  obtain ⟨top, outer, stack, -⟩ := standing.exists_top
  exact Orderly.bind_ok (currentScope_eq stack) (stamp_orderly returned node top)

/-- Forks of the top take its place. -/
theorem replaceScope_orderly (returned : Returned owner before state) {top scope : ScopeId}
    {outer : List ScopeId} (stack : before.stack = top :: outer)
    (forked : Forked state.registry top scope) :
    Orderly owner (replaceScope scope) (replaceScope scope) state
      fun _ after => Moved owner before after ∧ after.registry = state.registry := by
  refine Orderly.bind_get ?_
  rw [returned.stack, stack]
  exact ⟨rfl, ⟨returned.owned, returned.grows, top, scope, outer, stack, rfl, forked⟩, rfl⟩

theorem pushScope_eq (scope : ScopeId) :
    pushScope scope state = .ok ⟨⟩ { state with stack := scope :: state.stack } := rfl

theorem popScope_eq {top next : ScopeId} {outer : List ScopeId}
    (stack : state.stack = top :: next :: outer) :
    popScope state = .ok top { state with stack := next :: outer } := by
  refine bind_eq_ok.2 ⟨state, state, get_eq_ok.2 ⟨rfl, rfl⟩, ?_⟩
  rw [stack]
  rfl

/-- Whether a scope is a class body can always be asked. -/
theorem isClassScope_eq (scope : ScopeId) :
    isClassScope scope state =
      .ok ((state.registry.scope? scope).bind fun found => found.body.members?).isSome state := rfl

/-- Visitors that end alike and keep the discipline. -/
def Careful (owner : ScopeId) (visit other : Node -> Annotating Unit) : Prop :=
  forall node state, Standing owner state ->
    Orderly owner (visit node) (other node) state fun _ after => Moved owner state after

section Rules

variable {visit other : Node -> Annotating Unit}

/-- Visits one after the other. -/
theorem visitEach_orderly (careful : Careful owner visit other) (standing : Standing owner before)
    (moved : Moved owner before state) (nodes : List Node) :
    Orderly owner (nodes.forM visit) (nodes.forM other) state
      fun _ after => Moved owner before after := by
  refine Orderly.forM _ ?_ moved
  intro node _ current went
  refine (careful node current (went.standing standing)).mono ?_
  intro _ after further
  exact went.trans further

/-- A labelled part that is missing is passed over, and one that is there is visited. -/
theorem visitPart_orderly (careful : Careful owner visit other) (standing : Standing owner before)
    (moved : Moved owner before state) (node : Node) (label : String) :
    Orderly owner (visitPart visit node label) (visitPart other node label) state
      fun _ after => Moved owner before after := by
  unfold visitPart
  cases node.child? label with
  | none => exact Orderly.pure moved
  | some part =>
      refine (careful part state (moved.standing standing)).mono ?_
      intro _ after further
      exact moved.trans further

/-- What is visited inside a scope leaves the stack as it was. -/
theorem visitInside_orderly (careful : Careful owner visit other)
    (standing : Standing owner before) (returned : Returned owner before state) {scope : ScopeId}
    (bound : scope < state.registry.scopes.size) (node : Node) (labels : List String) :
    Orderly owner (visitInside visit node scope labels) (visitInside other node scope labels) state
      fun _ after => Returned owner before after := by
  refine (stamp_orderly (Returned.refl (returned.standing standing)) node scope).bind ?_
  intro _ stamped here
  have base := here.standing (returned.standing standing)
  have pushed : Standing owner { stamped with stack := scope :: stamped.stack } := by
    refine ⟨base.owned, base.rooted, List.cons_ne_nil _ _, ?_⟩
    intro place member
    rcases List.mem_cons.1 member with rfl | deeper
    · exact here.grows.kept.lt_size bound
    · exact base.opened place deeper
  refine Orderly.bind_ok (pushScope_eq scope) ?_
  refine (Orderly.forM (Moved owner { stamped with stack := scope :: stamped.stack }) ?_
    ((Returned.refl pushed).moved pushed)).bind ?_
  · intro label _ current went
    exact visitPart_orderly careful pushed went node label
  · intro _ last went
    obtain ⟨_, new, outer, oldStack, newStack, -⟩ := went.stack
    obtain ⟨-, rfl⟩ := List.cons.inj oldStack
    obtain ⟨top, rest, stack, -⟩ := base.exists_top
    rw [stack] at newStack
    refine Orderly.bind_ok (popScope_eq newStack) (Orderly.pure ?_)
    refine ⟨went.owned, returned.grows.trans (here.grows.trans went.grows), ?_⟩
    exact stack.symm.trans (here.stack.trans returned.stack)

/-- The stack of a state after a namespace was entered from it. -/
structure Entered (owner : ScopeId) (before after : Annotator) : Prop where
  standing : Standing owner after
  grows : Grows owner before.registry after.registry
  stack : ∃ space, after.stack = space :: before.stack

/-- A namespace definition pushes one scope, which belongs to the same program. -/
theorem enterNamespaceOf_orderly (standing : Standing owner state) (node : Node) :
    Orderly owner (enterNamespaceOf node) (enterNamespaceOf node) state
      fun _ after => Entered owner state after := by
  obtain ⟨top, outer, stack, bound⟩ := standing.exists_top
  have start := Returned.refl standing
  -- whichever scope was found, it is stamped and entered
  have enters {scope : ScopeId} {current : Annotator} (returned : Returned owner state current)
      (inside : scope < current.registry.scopes.size) :
      Orderly owner (do stamp node scope; pushScope scope) (do stamp node scope; pushScope scope)
        current fun _ after => Entered owner state after := by
    refine (stamp_orderly (Returned.refl (returned.standing standing)) node scope).bind ?_
    intro _ stamped here
    have base := here.standing (returned.standing standing)
    refine ⟨rfl, ⟨base.owned, base.rooted, List.cons_ne_nil _ _, ?_⟩,
      returned.grows.trans here.grows, scope, ?_⟩
    · intro place member
      rcases List.mem_cons.1 member with rfl | deeper
      · exact here.grows.kept.lt_size inside
      · exact base.opened place deeper
    · show scope :: stamped.stack = scope :: state.stack
      rw [here.stack, returned.stack]
  refine Orderly.bind_ok (currentScope_eq stack) ?_
  cases node.child? "name" with
  | none => exact Orderly.bind_ok rfl (enters start bound)
  | some name =>
      refine (onRegistry_orderly start (standing.rooted.declareNamespace bound name.text)).bind ?_
      intro space declared holds
      exact enters holds.1 holds.2

/-- Leaving a namespace goes back to the scope around it. -/
theorem leaveNamespace_orderly (standing : Standing owner state) {space next : ScopeId}
    {outer : List ScopeId} (stack : state.stack = space :: next :: outer) :
    Orderly owner leaveNamespace leaveNamespace state fun _ after =>
      Returned owner { state with stack := next :: outer } after := by
  have left : Standing owner { state with stack := next :: outer } := by
    refine ⟨standing.owned, standing.rooted, List.cons_ne_nil _ _, ?_⟩
    intro place member
    exact standing.opened place (stack ▸ List.mem_cons_of_mem _ member)
  refine Orderly.bind_ok (popScope_eq stack) ?_
  exact endProgram_orderly (Returned.refl left) space

/-- Where a file stands between two statements: in forks of the scope in which
the file began, and inside a namespace of its own, if one is open. -/
structure Between (owner : ScopeId) (before : Annotator) (isOpen : Bool) (state : Annotator) :
    Prop where
  standing : Standing owner state
  grows : Grows owner before.registry state.registry
  stack : ∃ old new outer, before.stack = old :: outer ∧ Forked state.registry old new ∧
    if isOpen then ∃ space, state.stack = space :: new :: outer else state.stack = new :: outer

/-- With no namespace open the stack is the one that the statements began with. -/
theorem Between.moved (between : Between owner before false state) : Moved owner before state := by
  obtain ⟨old, new, outer, oldStack, forked, newStack⟩ := between.stack
  exact ⟨between.standing.owned, between.grows, old, new, outer, oldStack, newStack, forked⟩

/-- Leaving the namespace that is open. -/
theorem Between.leave (between : Between owner before true state) :
    Orderly owner leaveNamespace leaveNamespace state
      fun _ after => Between owner before false after := by
  obtain ⟨old, new, outer, oldStack, forked, space, stack⟩ := between.stack
  refine (leaveNamespace_orderly between.standing stack).mono ?_
  intro _ after returned
  have left : Standing owner { state with stack := new :: outer } := by
    refine ⟨between.standing.owned, between.standing.rooted, List.cons_ne_nil _ _, ?_⟩
    intro place member
    exact between.standing.opened place (stack ▸ List.mem_cons_of_mem _ member)
  exact ⟨returned.standing left, between.grows.trans returned.grows, old, new, outer, oldStack,
    forked_mono returned.grows.kept forked, returned.stack⟩

/-- Entering a namespace when none is open. -/
theorem Between.enter (between : Between owner before false state) (node : Node) :
    Orderly owner (enterNamespaceOf node) (enterNamespaceOf node) state
      fun _ after => Between owner before true after := by
  obtain ⟨old, new, outer, oldStack, forked, stack⟩ := between.stack
  refine (enterNamespaceOf_orderly between.standing node).mono ?_
  intro _ after entered
  obtain ⟨space, newStack⟩ := entered.stack
  refine ⟨entered.standing, between.grows.trans entered.grows, old, new, outer, oldStack,
    forked_mono entered.grows.kept forked, space, ?_⟩
  rw [newStack, stack]

/-- A visit between two statements. -/
theorem Between.visited {isOpen : Bool} {after : Annotator}
    (between : Between owner before isOpen state) (moved : Moved owner state after) :
    Between owner before isOpen after := by
  obtain ⟨old, new, outer, oldStack, forked, stack⟩ := between.stack
  obtain ⟨_, last, _, sameStack, lastStack, went⟩ := moved.stack
  refine ⟨moved.standing between.standing, between.grows.trans moved.grows, ?_⟩
  have kept := forked_mono moved.grows.kept forked
  cases isOpen with
  | false =>
      obtain ⟨rfl, rfl⟩ := List.cons.inj (stack.symm.trans sameStack)
      exact ⟨old, last, outer, oldStack, kept.trans went, lastStack⟩
  | true =>
      obtain ⟨space, stack⟩ := stack
      obtain ⟨rfl, rfl⟩ := List.cons.inj (stack.symm.trans sameStack)
      exact ⟨old, new, outer, oldStack, kept, last, lastStack⟩

/-- Between two statements there is one scope more exactly if a namespace is open. -/
theorem visitStatement_orderly (careful : Careful owner visit other) (isOpen : Bool)
    (between : Between owner before isOpen state) (statement : Node) :
    Orderly owner (visitStatement visit isOpen statement) (visitStatement other isOpen statement)
      state fun nowOpen after => Between owner before nowOpen after := by
  unfold visitStatement
  cases opensNamespace statement with
  | true =>
      have enters {current : Annotator} (closed : Between owner before false current) :
          Orderly owner (do enterNamespaceOf statement; return true)
            (do enterNamespaceOf statement; return true) current
            fun nowOpen after => Between owner before nowOpen after :=
        (closed.enter statement).bind fun _ _ entered => Orderly.pure entered
      cases isOpen with
      | false => exact enters between
      | true => exact between.leave.bind fun _ _ closed => enters closed
  | false =>
      refine (careful statement state between.standing).bind ?_
      intro _ after moved
      exact Orderly.pure (between.visited moved)

/-- A program closes the namespace that its last statement left open. -/
theorem visitProgram_orderly (careful : Careful owner visit other)
    (standing : Standing owner state) (node : Node) :
    Orderly owner (visitProgram visit node) (visitProgram other node) state
      fun _ after => Moved owner state after := by
  refine (stampHere_orderly (Returned.refl standing) standing node).bind ?_
  intro _ stamped returned
  obtain ⟨top, outer, stack, -⟩ := standing.exists_top
  have begun : Between owner state false stamped :=
    ⟨returned.standing standing, returned.grows, top, top, outer, stack, .refl,
      returned.stack.trans stack⟩
  refine (Orderly.foldlM (Between owner state) ?_ begun).bind ?_
  · intro statement _ isOpen current between
    exact visitStatement_orderly careful isOpen between statement
  · intro isOpen last between
    cases isOpen with
    | false => exact Orderly.pure between.moved
    | true => exact between.leave.mono fun _ _ closed => closed.moved

/-- A namespace definition pops the scope that it has pushed. -/
theorem visitNamespace_orderly (careful : Careful owner visit other)
    (standing : Standing owner state) (node : Node) :
    Orderly owner (visitNamespace visit node) (visitNamespace other node) state
      fun _ after => Returned owner state after := by
  obtain ⟨top, outer, stack, -⟩ := standing.exists_top
  refine (enterNamespaceOf_orderly standing node).bind ?_
  intro _ inside entered
  have still := (Returned.refl entered.standing).moved entered.standing
  refine (visitPart_orderly careful entered.standing still node "body").bind ?_
  intro _ last moved
  obtain ⟨space, newStack⟩ := entered.stack
  obtain ⟨_, new, _, sameStack, lastStack, -⟩ := moved.stack
  rw [newStack] at sameStack
  obtain ⟨-, rfl⟩ := List.cons.inj sameStack
  rw [stack] at lastStack
  refine (leaveNamespace_orderly (moved.standing entered.standing) lastStack).mono ?_
  intro _ after returned
  exact ⟨returned.owned, entered.grows.trans (moved.grows.trans returned.grows),
    returned.stack.trans stack.symm⟩

/-- A function is being set up: its entry is there, and newer than the visit. -/
structure Setting (owner : ScopeId) (before : Annotator) (entry : ScopeId) (state : Annotator) :
    Prop where
  returned : Returned owner before state
  fresh : before.registry.scopes.size <= entry
  atEntry : Rooted.EntryAt state.registry entry

/-- The entry of a body is a scope that has been opened. -/
theorem Setting.lt_size {entry : ScopeId} (setting : Setting owner before entry state) :
    entry < state.registry.scopes.size := by
  obtain ⟨_, present, _⟩ := setting.atEntry
  exact Registry.scope?_lt present

/-- Binding a variable on entry keeps to the entry. -/
theorem Setting.bindOnEntry {entry : ScopeId} (setting : Setting owner before entry state)
    (name : String) (binding : Binding Node) :
    Orderly owner (onRegistry (Scopes.bindOnEntry entry name binding))
      (onRegistry (Scopes.bindOnEntry entry name binding)) state
      fun _ after => Setting owner before entry after := by
  refine ⟨rfl, ?_⟩
  have ends := Rooted.bindOnEntry setting.returned.grows setting.fresh setting.atEntry name binding
  unfold onRegistry
  cases outcome : Scopes.bindOnEntry entry name binding state.registry with
  | ok value registry =>
      rw [outcome] at ends
      exact ⟨⟨setting.returned.owned, ends.1, setting.returned.stack⟩, setting.fresh, ends.2⟩
  | error fault registry =>
      rw [outcome] at ends
      exact ⟨ends.1, setting.returned.owned, ends.2⟩

/-- Parameters are bound on the entry of a body and move no scope. -/
theorem bindParameters_orderly {entry : ScopeId} (setting : Setting owner before entry state)
    (node : Node) :
    Orderly owner (bindParameters entry node) (bindParameters entry node) state
      fun _ after => Setting owner before entry after := by
  refine Orderly.forM _ ?_ setting
  rintro ⟨parameter, index⟩ _ current holds
  simp only
  split
  · exact holds.bindOnEntry _ _
  · exact Orderly.pure holds

/-- A function that was declared or opened is being set up. -/
theorem setting_of_opened {operation : Registering Node ScopeId} (standing : Standing owner state)
    (ends : Ends (operation state.registry)
      (fun entry after => Grows owner state.registry after ∧
        state.registry.scopes.size <= entry ∧ Rooted.EntryAt after entry) (Refused owner)) :
    Orderly owner (onRegistry operation) (onRegistry operation) state
      fun entry after => Setting owner state entry after :=
  (onRegistry_orderly (Returned.refl standing) ends).mono
    fun _ _ holds => ⟨holds.1, holds.2.1, holds.2.2⟩

/-- A function definition returns to the scope that it stands in. -/
theorem visitFunction_orderly (careful : Careful owner visit other)
    (standing : Standing owner state) (node : Node) :
    Orderly owner (visitFunction visit node) (visitFunction other node) state
      fun _ after => Returned owner state after := by
  obtain ⟨top, outer, stack, bound⟩ := standing.exists_top
  refine Orderly.bind_ok (currentScope_eq stack) ?_
  refine (setting_of_opened standing (standing.rooted.declareFunction bound _ node)).bind ?_
  intro entry _ setting
  refine (bindParameters_orderly setting node).bind ?_
  intro _ _ ready
  exact visitInside_orderly careful standing ready.returned ready.lt_size node _

/-- A method returns to the scope that it stands in, inside a class or outside. -/
theorem visitMethod_orderly (careful : Careful owner visit other)
    (standing : Standing owner state) (node : Node) :
    Orderly owner (visitMethod visit node) (visitMethod other node) state
      fun _ after => Returned owner state after := by
  obtain ⟨top, outer, stack, bound⟩ := standing.exists_top
  -- whichever way the entry was opened, it is set up and visited alike
  have visits : forall entry current, Setting owner state entry current ->
      Orderly owner
        (do
          bindParameters entry node
          onRegistry (Scopes.bindOnEntry entry "$this" (.parameter "$this" node (-1)))
          visitInside visit node entry ["parameters", "body"])
        (do
          bindParameters entry node
          onRegistry (Scopes.bindOnEntry entry "$this" (.parameter "$this" node (-1)))
          visitInside other node entry ["parameters", "body"])
        current fun _ after => Returned owner state after := by
    intro entry current setting
    refine (bindParameters_orderly setting node).bind fun _ _ bound => ?_
    refine (bound.bindOnEntry _ _).bind fun _ _ ready => ?_
    exact visitInside_orderly careful standing ready.returned ready.lt_size node _
  refine Orderly.bind_ok (currentScope_eq stack) ?_
  refine Orderly.bind_ok (isClassScope_eq top) ?_
  split
  · exact (setting_of_opened standing (standing.rooted.declareFunction bound _ node)).bind visits
  · exact (setting_of_opened standing (standing.rooted.openFunction bound _)).bind visits

/-- The entry of a body remains one while the annotation returns to where it was. -/
theorem Setting.later {entry : ScopeId} {after : Annotator}
    (setting : Setting owner before entry state) (returned : Returned owner state after) :
    Setting owner before entry after :=
  ⟨⟨returned.owned, setting.returned.grows.trans returned.grows,
    returned.stack.trans setting.returned.stack⟩, setting.fresh,
    setting.atEntry.later returned.grows.kept⟩

/-- A captured variable is bound on the entry of a body and moves no scope. -/
theorem captureVariable_orderly {entry : ScopeId} (setting : Setting owner before entry state)
    (standing : Standing owner before) (outer : ScopeId) (captured : Node) :
    Orderly owner (captureVariable outer entry captured) (captureVariable outer entry captured)
      state fun _ after => Setting owner before entry after := by
  have here := Returned.refl (setting.returned.standing standing)
  refine (stamp_orderly here captured outer).bind ?_
  intro _ stamped returned
  have set := setting.later returned
  refine Orderly.bind_get ?_
  cases stamped.registry.resolveVariable outer captured.text with
  | ok binding => exact set.bindOnEntry _ binding
  | error fault =>
      refine (remark_orderly (Returned.refl (set.returned.standing standing)) _).mono ?_
      intro _ after noted
      exact set.later noted

/-- A closure returns to the scope that it stands in. -/
theorem visitClosure_orderly (careful : Careful owner visit other)
    (standing : Standing owner state) (node : Node) :
    Orderly owner (visitClosure visit node) (visitClosure other node) state
      fun _ after => Returned owner state after := by
  obtain ⟨top, outer, stack, bound⟩ := standing.exists_top
  refine Orderly.bind_ok (currentScope_eq stack) ?_
  refine (setting_of_opened standing (standing.rooted.openFunction bound _)).bind ?_
  intro entry _ setting
  refine (bindParameters_orderly setting node).bind fun _ _ ready => ?_
  refine (Orderly.forM (Setting owner state entry) ?_ ready).bind fun _ _ captured => ?_
  · intro captured _ current holds
    exact captureVariable_orderly holds standing top captured
  · exact visitInside_orderly careful standing captured.returned captured.lt_size node _

/-- A scope that forks lead to, while the stack stays as it was. -/
structure Forking (owner : ScopeId) (before : Annotator) (top scope : ScopeId)
    (state : Annotator) : Prop where
  returned : Returned owner before state
  bound : scope < state.registry.scopes.size
  forked : Forked state.registry top scope

/-- A fork of the top scope remains one while the annotation returns to where it was. -/
theorem Forking.later {top scope : ScopeId} {after : Annotator}
    (forking : Forking owner before top scope state) (returned : Returned owner state after) :
    Forking owner before top scope after :=
  ⟨⟨returned.owned, forking.returned.grows.trans returned.grows,
    returned.stack.trans forking.returned.stack⟩, returned.grows.kept.lt_size forking.bound,
    forked_mono returned.grows.kept forking.forked⟩

/-- One more fork. -/
theorem Forking.fork {top scope : ScopeId} {operation : Registering Node ScopeId}
    (forking : Forking owner before top scope state)
    (ends : Ends (operation state.registry)
      (fun child after => Grows owner state.registry after ∧ after.Forks scope child)
      (Refused owner)) :
    Orderly owner (onRegistry operation) (onRegistry operation) state
      fun child after => Forking owner before top child after := by
  have here : Returned owner state state :=
    ⟨forking.returned.owned, Grows.refl forking.returned.grows.rooted, rfl⟩
  refine (onRegistry_orderly here ends).mono ?_
  intro child after holds
  have kept := forking.later holds.1
  exact ⟨kept.returned, holds.2.lt_size, kept.forked.tail holds.2⟩

/-- A variable that is bound on a fork of the top scope leaves another fork of it. -/
theorem Forking.bindVariable {top scope : ScopeId}
    (forking : Forking owner before top scope state) (name : String) (binding : Binding Node) :
    Orderly owner (onRegistry (Scopes.bindVariable scope name binding))
      (onRegistry (Scopes.bindVariable scope name binding)) state
      fun child after => Forking owner before top child after :=
  forking.fork (forking.returned.grows.rooted.bindVariable forking.bound name binding)

/-- The targets of an assignment are bound one after the other on forks of the top scope. -/
theorem bindTargets_orderly {top scope : ScopeId}
    (forking : Forking owner before top scope state) (node : Node) (targets : List Node) :
    Orderly owner (bindTargets node targets scope) (bindTargets node targets scope) state
      fun child after => Forking owner before top child after := by
  refine Orderly.foldlM (Forking owner before top) ?_ forking
  intro target _ current now holds
  exact holds.bindVariable target.text _

/-- Forks take the place of the top, and the construct that made them is
stamped. -/
theorem settle_orderly (standing : Standing owner before) {top scope : ScopeId}
    {outer : List ScopeId} (stack : before.stack = top :: outer)
    (forking : Forking owner before top scope state) (node : Node) :
    Orderly owner (do replaceScope scope; stamp node scope)
      (do replaceScope scope; stamp node scope) state
      fun _ after => Moved owner before after := by
  refine (replaceScope_orderly forking.returned stack forking.forked).bind ?_
  intro _ replaced holds
  refine (stamp_orderly (Returned.refl (holds.1.standing standing)) node scope).mono ?_
  intro _ after returned
  exact holds.1.returned returned

/-- An arrow function returns to the scope that it stands in. -/
theorem visitArrowFunction_orderly (careful : Careful owner visit other)
    (standing : Standing owner state) (node : Node) :
    Orderly owner (visitArrowFunction visit node) (visitArrowFunction other node) state
      fun _ after => Returned owner state after := by
  obtain ⟨top, outer, stack, bound⟩ := standing.exists_top
  refine Orderly.bind_ok (currentScope_eq stack) ?_
  refine (Orderly.foldlM (Forking owner state top) ?_
    ⟨Returned.refl standing, bound, .refl⟩).bind ?_
  · rintro ⟨parameter, index⟩ _ scope current forking
    unfold bindArrowParameter
    simp only
    split
    · exact forking.bindVariable _ _
    · exact Orderly.pure forking
  · intro scope _ forking
    exact visitInside_orderly careful standing forking.returned forking.bound node _

/-- A class declaration returns to the scope that it stands in. -/
theorem visitClass_orderly (careful : Careful owner visit other)
    (standing : Standing owner state) (node : Node) :
    Orderly owner (visitClass visit node) (visitClass other node) state
      fun _ after => Returned owner state after := by
  obtain ⟨top, outer, stack, bound⟩ := standing.exists_top
  refine Orderly.bind_ok (currentScope_eq stack) ?_
  refine (onRegistry_orderly (Returned.refl standing)
    (standing.rooted.declareClass bound _ node)).bind ?_
  intro scope _ holds
  exact visitInside_orderly careful standing holds.1 holds.2 node _

/-- A property declares itself on the class and leaves the current scope where it was. -/
theorem visitPropertyPart_orderly (careful : Careful owner visit other)
    (standing : Standing owner state) (home : ScopeId) (element part : Node) :
    Orderly owner (visitPropertyPart visit home element part)
      (visitPropertyPart other home element part) state
      fun _ after => Moved owner state after := by
  unfold visitPropertyPart
  split
  · refine Orderly.bind_ok (isClassScope_eq home) ?_
    split
    · rename_i isClass
      refine (onRegistry_returns (Returned.refl standing)
        (standing.rooted.declareProperty isClass _ element)).bind ?_
      intro _ _ returned
      refine (careful part _ (returned.standing standing)).mono ?_
      intro _ after moved
      exact Moved.of_returned returned moved
    · exact careful part state standing
  · exact careful part state standing

theorem visitPropertyElement_orderly (careful : Careful owner visit other)
    (standing : Standing owner state) (home : ScopeId) (element : Node) :
    Orderly owner (visitPropertyElement visit home element)
      (visitPropertyElement other home element) state
      fun _ after => Moved owner state after := by
  unfold visitPropertyElement
  split
  · refine (stampHere_orderly (Returned.refl standing) standing element).bind ?_
    intro _ stamped returned
    refine Orderly.forM (Moved owner state) ?_ (returned.moved standing)
    intro part _ current moved
    refine (visitPropertyPart_orderly careful (moved.standing standing) home element part).mono ?_
    intro _ after further
    exact moved.trans further
  · exact careful element state standing

theorem visitProperty_orderly (careful : Careful owner visit other)
    (standing : Standing owner state) (node : Node) :
    Orderly owner (visitProperty visit node) (visitProperty other node) state
      fun _ after => Moved owner state after := by
  obtain ⟨top, outer, stack, -⟩ := standing.exists_top
  refine Orderly.bind_ok (currentScope_eq stack) ?_
  refine (stampHere_orderly (Returned.refl standing) standing node).bind ?_
  intro _ stamped returned
  refine Orderly.forM (Moved owner state) ?_ (returned.moved standing)
  intro element _ current moved
  refine (visitPropertyElement_orderly careful (moved.standing standing) top element).mono ?_
  intro _ after further
  exact moved.trans further

/-- A constant is declared where it stands, with or without a value. -/
theorem visitConstantElement_orderly (careful : Careful owner visit other)
    (standing : Standing owner state) (element : Node) :
    Orderly owner (visitConstantElement visit element) (visitConstantElement other element) state
      fun _ after => Moved owner state after := by
  have visits := careful element state standing
  unfold visitConstantElement
  split
  · cases element.namedChildren.head? with
    | none => exact visits
    | some first =>
        simp only
        split
        · obtain ⟨top, outer, stack, bound⟩ := standing.exists_top
          refine Orderly.bind_ok (currentScope_eq stack) ?_
          refine (onRegistry_returns (Returned.refl standing)
            (standing.rooted.declareConstant bound _ element)).bind ?_
          intro _ _ returned
          refine (careful element _ (returned.standing standing)).mono ?_
          intro _ after moved
          exact Moved.of_returned returned moved
        · exact visits
  · exact visits

theorem visitConstants_orderly (careful : Careful owner visit other)
    (standing : Standing owner state) (node : Node) :
    Orderly owner (visitConstants visit node) (visitConstants other node) state
      fun _ after => Moved owner state after := by
  refine (stampHere_orderly (Returned.refl standing) standing node).bind ?_
  intro _ stamped returned
  refine Orderly.forM (Moved owner state) ?_ (returned.moved standing)
  intro element _ current moved
  refine (visitConstantElement_orderly careful (moved.standing standing) element).mono ?_
  intro _ after further
  exact moved.trans further

/-- A name of a `global` statement is bound on a fork of the top scope. -/
theorem bindGlobalName_orderly (standing : Standing owner before) {top scope : ScopeId}
    (forking : Forking owner before top scope state) (node child : Node) :
    Orderly owner (bindGlobalName node scope child) (bindGlobalName node scope child) state
      fun next after => Forking owner before top next after := by
  have here := Returned.refl (forking.returned.standing standing)
  refine (stamp_orderly here child scope).bind ?_
  intro _ stamped returned
  have kept := forking.later returned
  split
  · exact kept.fork (kept.returned.grows.rooted.bindByReference kept.bound _ node)
  · refine (remark_orderly (Returned.refl (kept.returned.standing standing)) _).bind ?_
    intro _ _ noted
    exact Orderly.pure (kept.later noted)

/-- A `global` statement replaces the top scope by a fork of it. -/
theorem visitGlobal_orderly (standing : Standing owner state) (node : Node) :
    Orderly owner (visitGlobal node) (visitGlobal node) state
      fun _ after => Moved owner state after := by
  obtain ⟨top, outer, stack, bound⟩ := standing.exists_top
  refine Orderly.bind_ok (currentScope_eq stack) ?_
  refine (Orderly.foldlM (Forking owner state top) ?_
    ⟨Returned.refl standing, bound, .refl⟩).bind ?_
  · intro child _ scope current forking
    exact bindGlobalName_orderly standing forking node child
  · intro scope _ forking
    exact settle_orderly standing stack forking node

/-- An `unset` replaces the top scope by a fork of it. -/
theorem visitUnset_orderly (careful : Careful owner visit other)
    (standing : Standing owner state) (node : Node) :
    Orderly owner (visitUnset visit node) (visitUnset other node) state
      fun _ after => Moved owner state after := by
  have start := (Returned.refl standing).moved standing
  refine (visitEach_orderly careful standing start node.namedChildren).bind ?_
  intro _ visited moved
  have here := moved.standing standing
  obtain ⟨top, outer, stack, bound⟩ := here.exists_top
  refine Orderly.bind_ok (currentScope_eq stack) ?_
  refine (Orderly.foldlM (Forking owner visited top) ?_
    ⟨Returned.refl here, bound, .refl⟩).bind ?_
  · intro child _ scope current forking
    unfold unbindName
    split
    · exact forking.bindVariable _ _
    · exact Orderly.pure forking
  · intro scope _ forking
    refine (settle_orderly here stack forking node).mono ?_
    intro _ after further
    exact moved.trans further

/-- An assignment visits its right side first and then replaces the top scope by a fork of it. -/
theorem visitAssignment_orderly (careful : Careful owner visit other)
    (standing : Standing owner state) (node : Node) :
    Orderly owner (visitAssignment visit node) (visitAssignment other node) state
      fun _ after => Moved owner state after := by
  have start := (Returned.refl standing).moved standing
  refine (visitPart_orderly careful standing start node "right").bind fun _ _ valued => ?_
  refine (visitPart_orderly careful standing valued node "left").bind fun _ visited moved => ?_
  have here := moved.standing standing
  obtain ⟨top, outer, stack, bound⟩ := here.exists_top
  have binds (targets : List Node) {current : Annotator}
      (returned : Returned owner visited current) :
      Orderly owner
        (do
          let scope ← bindTargets node targets top
          replaceScope scope
          stamp node scope)
        (do
          let scope ← bindTargets node targets top
          replaceScope scope
          stamp node scope)
        current fun _ after => Moved owner state after := by
    refine (bindTargets_orderly ⟨returned, returned.grows.kept.lt_size bound, .refl⟩ node
      targets).bind ?_
    intro scope _ forking
    refine (settle_orderly here stack forking node).mono ?_
    intro _ after further
    exact moved.trans further
  refine Orderly.bind_ok (currentScope_eq stack) ?_
  cases node.child? "left" with
  | none => exact binds [] (Returned.refl here)
  | some target =>
      simp only
      split
      · refine (remark_orderly (Returned.refl here) _).bind ?_
        intro _ _ noted
        exact binds _ noted
      · exact binds _ (Returned.refl here)

/-- A loop binds its variables on a fork of the top scope before its body is visited. -/
theorem visitIteration_orderly (careful : Careful owner visit other)
    (standing : Standing owner state) (node : Node) :
    Orderly owner (visitIteration visit node) (visitIteration other node) state
      fun _ after => Moved owner state after := by
  refine (stampHere_orderly (Returned.refl standing) standing node).bind ?_
  intro _ stamped returned
  have start := returned.moved standing
  have children := visitEach_orderly careful standing start node.namedChildren
  unfold visitChildren
  rcases named : node.namedChildren with _ | ⟨iterated, _ | ⟨binding, body⟩⟩
  · rw [named] at children
    exact children
  · rw [named] at children
    exact children
  · refine (careful iterated stamped (start.standing standing)).bind fun _ _ first => ?_
    have firstMoved := start.trans first
    refine (careful binding _ (firstMoved.standing standing)).bind fun _ visited second => ?_
    have moved := firstMoved.trans second
    have here := moved.standing standing
    obtain ⟨top, outer, stack, bound⟩ := here.exists_top
    refine Orderly.bind_ok (currentScope_eq stack) ?_
    refine (bindTargets_orderly ⟨Returned.refl here, bound, .refl⟩ node binding.targets).bind ?_
    intro scope _ forking
    refine (replaceScope_orderly forking.returned stack forking.forked).bind ?_
    intro _ replaced holds
    exact visitEach_orderly careful standing (moved.trans holds.1) body

/-- A static variable is bound on a fork that takes the place of the top scope. -/
theorem visitStaticVariable_orderly (careful : Careful owner visit other)
    (standing : Standing owner state) (node : Node) :
    Orderly owner (visitStaticVariable visit node) (visitStaticVariable other node) state
      fun _ after => Moved owner state after := by
  have start := (Returned.refl standing).moved standing
  refine (visitPart_orderly careful standing start node "value").bind fun _ visited moved => ?_
  have here := moved.standing standing
  obtain ⟨top, outer, stack, bound⟩ := here.exists_top
  have stamps (scope : ScopeId) {current : Annotator} (went : Moved owner state current) :
      Orderly owner (stamp node scope) (stamp node scope) current
        fun _ after => Moved owner state after := by
    refine (stamp_orderly (Returned.refl (went.standing standing)) node scope).mono ?_
    intro _ after returned
    exact went.returned returned
  refine Orderly.bind_ok (currentScope_eq stack) ?_
  cases node.child? "name" with
  | none => exact stamps top moved
  | some name =>
      simp only
      split
      · refine (stamp_orderly (Returned.refl here) name top).bind fun _ _ returned => ?_
        have forking : Forking owner visited top top _ :=
          ⟨returned, returned.grows.kept.lt_size bound, .refl⟩
        refine (forking.bindVariable name.text _).bind fun scope _ bound => ?_
        refine (replaceScope_orderly bound.returned stack bound.forked).bind ?_
        intro _ replaced holds
        exact stamps scope (moved.trans holds.1)
      · exact stamps top moved

/-- A call that defines a constant moves no scope. -/
theorem visitCall_orderly (careful : Careful owner visit other)
    (standing : Standing owner state) (node : Node) :
    Orderly owner (visitCall visit node) (visitCall other node) state
      fun _ after => Moved owner state after := by
  refine (stampHere_orderly (Returned.refl standing) standing node).bind ?_
  intro _ stamped returned
  refine (visitEach_orderly careful standing (returned.moved standing) node.namedChildren).bind ?_
  intro _ visited moved
  have here := moved.standing standing
  split
  · cases definedConstant? node with
    | none => exact Orderly.pure moved
    | some literal =>
        refine Orderly.bind_get ?_
        rw [here.owned]
        refine (onRegistry_returns (Returned.refl here)
          (here.rooted.declareConstant here.rooted.root_lt _ node)).mono ?_
        intro _ after declared
        exact moved.returned declared
  · exact Orderly.pure moved

/-- Every other construct visits its children one after the other. -/
theorem visitPlain_orderly (careful : Careful owner visit other)
    (standing : Standing owner state) (node : Node) :
    Orderly owner (visitPlain visit node) (visitPlain other node) state
      fun _ after => Moved owner state after := by
  have visits {current : Annotator} (returned : Returned owner state current) :
      Orderly owner (do stampHere node; visitChildren visit node)
        (do stampHere node; visitChildren other node) current
        fun _ after => Moved owner state after := by
    refine (stampHere_orderly returned (returned.standing standing) node).bind ?_
    intro _ stamped here
    exact visitEach_orderly careful standing (here.moved standing) node.namedChildren
  unfold visitPlain
  split
  · refine (remark_orderly (Returned.refl standing) _).bind ?_
    intro _ _ noted
    exact visits noted
  · exact visits (Returned.refl standing)

/-- Every rule keeps the discipline of the stack. -/
theorem visitNode_orderly (careful : Careful owner visit other)
    (standing : Standing owner state) (node : Node) :
    Orderly owner (visitNode visit node) (visitNode other node) state
      fun _ after => Moved owner state after ∧
        (leavesScope node.construct = true -> after.stack = state.stack) := by
  have back {construct : Construct} {step another : Annotating Unit}
      (orderly : Orderly owner step another state fun _ after => Returned owner state after) :
      Orderly owner step another state fun _ after => Moved owner state after ∧
        (leavesScope construct = true -> after.stack = state.stack) :=
    orderly.mono fun _ _ returned => ⟨returned.moved standing, fun _ => returned.stack⟩
  have on {construct : Construct} {step another : Annotating Unit}
      (stays : leavesScope construct = false)
      (orderly : Orderly owner step another state fun _ after => Moved owner state after) :
      Orderly owner step another state fun _ after => Moved owner state after ∧
        (leavesScope construct = true -> after.stack = state.stack) := by
    refine orderly.mono fun _ _ moved => ⟨moved, fun leaves => ?_⟩
    rw [stays] at leaves
    cases leaves
  unfold visitNode
  cases node.construct with
  | program => exact on rfl (visitProgram_orderly careful standing node)
  | namespaceDefinition => exact back (visitNamespace_orderly careful standing node)
  | functionDefinition => exact back (visitFunction_orderly careful standing node)
  | methodDeclaration => exact back (visitMethod_orderly careful standing node)
  | closure => exact back (visitClosure_orderly careful standing node)
  | arrowFunction => exact back (visitArrowFunction_orderly careful standing node)
  | classDeclaration => exact back (visitClass_orderly careful standing node)
  | propertyDeclaration => exact on rfl (visitProperty_orderly careful standing node)
  | constantDeclaration => exact on rfl (visitConstants_orderly careful standing node)
  | globalDeclaration => exact on rfl (visitGlobal_orderly standing node)
  | unset => exact on rfl (visitUnset_orderly careful standing node)
  | assignment => exact on rfl (visitAssignment_orderly careful standing node)
  | iteration => exact on rfl (visitIteration_orderly careful standing node)
  | staticVariable => exact on rfl (visitStaticVariable_orderly careful standing node)
  | call => exact on rfl (visitCall_orderly careful standing node)
  | plain => exact on rfl (visitPlain_orderly careful standing node)

end Rules

end PhpTaint.Annotation
