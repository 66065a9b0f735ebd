import PhpTaint.Proofs.Annotation.Placement

/-!
# The visiting rules beside the text

For every visiting rule: when the parts of a node are visited as the text is read,
so is the node. A construct with a scope of its own comes back to the scope in
which it was visited; what a statement binds makes a class body an ordinary scope.
-/

namespace PhpTaint.Annotation

open Scopes Syntax Outcome Lexical

variable {roots : List Node} {owner : ScopeId} {outer : List ScopeId} {path around : Path}
  {catalogue : Catalogue Node} {state : Annotator} {reading : State} {isClass : Bool}
  {node : Node}

/-- A flag that every item may put out is out in the end exactly if some item does so. -/
theorem foldl_and_not {β : Type} (forks : β -> Bool) (items : List β) (flag : Bool) :
    items.foldl (fun current item => current && !forks item) flag =
      (flag && !items.any forks) := by
  induction items generalizing flag with
  | nil => simp
  | cons item rest inductionHypothesis =>
      rw [List.foldl_cons, inductionHypothesis, List.any_cons]
      cases flag <;> cases forks item <;> simp

/-- The parts of a node are visited as the text is read. -/
def Reads (roots : List Node) (owner : ScopeId) (visit : Node -> Annotating Unit) (read : Reading)
    (node : Node) : Prop :=
  forall part around, part.tree.height < node.tree.height -> Visited roots around part ->
    forall outer catalogue state reading,
      Placed roots owner outer around catalogue state reading ->
        Lands catalogue (visit part state) fun _ later after =>
          Placed roots owner outer around later after (read around part reading)

section Rules

variable {visit : Node -> Annotating Unit} {read : Reading}

/-- A node is stamped with a scope that stands at the path of the node. -/
theorem stampHere_placed (placed : Placed roots owner outer path catalogue state reading)
    (stamped : Stamped roots path node) :
    Lands catalogue (stampHere node state) fun _ later after =>
      Placed roots owner outer path later after reading := by
  obtain ⟨here, stack, stands⟩ := placed.top
  exact Lands.bind_ok (currentScope_eq stack) (placed.stamps stands stamped)

/-- Parts of a node are visited one after the other where the node stands. -/
theorem visitEach_placed (reads : Reads roots owner visit read node)
    (placed : Placed roots owner outer path catalogue state reading) {parts : List Node}
    (lower : forall part, part ∈ parts -> part.tree.height < node.tree.height)
    (visited : forall part, part ∈ parts -> Visited roots path part) :
    Lands catalogue (parts.forM visit state) fun _ later after =>
      Placed roots owner outer path later after
        (parts.foldl (fun current part => read path part current) reading) := by
  apply Lands.forM _ (Placed roots owner outer path) _ placed
  intro part member catalogue state reading placed
  exact reads part path (lower part member) (visited part member) outer catalogue state reading
    placed

/-- A child is lower than its parent. -/
theorem lower_of_named {part : Node} (member : part ∈ node.namedChildren) :
    part.tree.height < node.tree.height :=
  Node.height_lt_of_mem_children (Node.mem_children_of_mem_namedChildren member)

/-- A labelled part is visited where the node stands. -/
theorem visitPart_placed (reads : Reads roots owner visit read node)
    (placed : Placed roots owner outer path catalogue state reading) {label : String}
    (visited : forall part, node.child? label = some part -> Visited roots path part) :
    Lands catalogue (visitPart visit node label state) fun _ later after =>
      Placed roots owner outer path later after (readPart read path node reading label) := by
  unfold visitPart readPart
  cases found : node.child? label with
  | none => exact Lands.pure placed
  | some part =>
      have lower := Node.height_lt_of_mem_children (Node.mem_children_of_child? found)
      exact reads part path lower (visited part found) outer catalogue state reading placed

/-- A run stands at a path above a scope that it is going back to. -/
def Inside (roots : List Node) (owner : ScopeId) (outer : List ScopeId) (path : Path)
    (isClass : Bool) (around : Path) (catalogue : Catalogue Node) (state : Annotator)
    (reading : State) : Prop :=
  ∃ below, StandsAt catalogue below path isClass ∧
    Placed roots owner (below :: outer) around catalogue state reading

/-- A scope is stamped on a node and entered. -/
theorem enterScope_placed (placed : Placed roots owner outer path catalogue state reading)
    {scope : ScopeId} (stands : StandsAt catalogue scope around isClass)
    (stamped : Stamped roots around node) :
    Lands catalogue ((do stamp node scope; pushScope scope : Annotating Unit) state)
      fun _ later after => Inside roots owner outer path reading.inClass around later after
        (reading.within isClass) := by
  apply (placed.stamps stands stamped).bind
  intro _ later marked kept placed
  obtain ⟨here, stack, below⟩ := placed.top
  have entered := placed.enter (stands.later kept)
  rw [stack] at entered
  exact Lands.of_ok (pushScope_eq scope) ⟨here, below, stack ▸ entered⟩

/-- What was entered is left. -/
theorem popScope_placed
    (inside : Inside roots owner outer path isClass around catalogue state reading) :
    Lands catalogue (popScope state) fun _ later after =>
      Placed roots owner outer path later after (reading.within isClass) := by
  obtain ⟨below, stands, placed⟩ := inside
  obtain ⟨here, popped, back⟩ := placed.leave stands
  exact Lands.of_ok popped back

/-- Parts visited in a scope of their own. -/
theorem visitInside_placed (reads : Reads roots owner visit read node)
    (placed : Placed roots owner outer path catalogue state reading) {scope : ScopeId}
    (stands : StandsAt catalogue scope around isClass) (stamped : Stamped roots around node)
    {labels : List String}
    (visited : forall label, label ∈ labels -> forall part, node.child? label = some part ->
      Visited roots around part) :
    Lands catalogue (visitInside visit node scope labels state) fun _ later after =>
      Placed roots owner outer path later after
        (readInside read around node isClass labels reading) := by
  -- stamping and pushing are one step
  rw [visitInside, ← bind_assoc]
  apply (enterScope_placed placed stands stamped).bind
  rintro _ later inner _ ⟨below, stands, inside⟩
  apply (Lands.forM _ (Placed roots owner (below :: outer) around) _ inside).bind
  · intro _ last left kept inside
    apply (popScope_placed ⟨below, stands.later kept, inside⟩).bind
    intro _ _ _ _ placed
    exact Lands.pure placed
  · intro label member catalogue state reading placed
    exact visitPart_placed reads placed (visited label member)

/-- A namespace is entered: its path is added to that of its scope. -/
theorem enterNamespaceOf_placed (visited : Visited roots path node)
    (construct : node.construct = .namespaceDefinition)
    (placed : Placed roots owner outer path catalogue state reading) :
    Lands catalogue (enterNamespaceOf node state) fun _ later after =>
      Inside roots owner outer path reading.inClass (namespacePath path node) later after
        (reading.within (reading.inClass && continuesScope node)) := by
  have stamped := Stamped.host visited
  rw [ownPath, if_pos construct] at stamped
  obtain ⟨here, stack, stands⟩ := placed.top
  apply Lands.bind_ok (currentScope_eq stack)
  cases found : node.child? "name" with
  | none =>
      have samePath : namespacePath path node = path := by simp [namespacePath, found]
      have continues : continuesScope node = true := by simp [continuesScope, found]
      rw [samePath] at stamped ⊢
      rw [continues, Bool.and_true]
      exact Lands.bind_ok rfl (enterScope_placed placed stands stamped)
  | some name =>
      have samePath : namespacePath path node =
          path ++ (segmentsOf name.text.toList).map Text.lower := by simp [namespacePath, found]
      have starts : continuesScope node = false := by simp [continuesScope, found]
      rw [samePath] at stamped ⊢
      rw [starts, Bool.and_false]
      apply (placed.declareNamespace stands name.text).bind
      rintro space _ declared _ ⟨placed, inside⟩
      exact enterScope_placed placed inside stamped

/-- Leaving a namespace returns to the path around it. -/
theorem leaveNamespace_placed
    (inside : Inside roots owner outer path isClass around catalogue state reading) :
    Lands catalogue (leaveNamespace state) fun _ later after =>
      Placed roots owner outer path later after (reading.within isClass) := by
  apply (popScope_placed inside).bind
  intro scope _ left _ placed
  exact placed.endsProgram scope

/-- Where a file stands between two statements: at its own path, or inside a
namespace without a body. -/
def Midway (roots : List Node) (owner : ScopeId) (outer : List ScopeId) (path here : Path)
    (catalogue : Catalogue Node) (state : Annotator) (progress : State × Option Bool) : Prop :=
  match progress.2 with
  | none => here = path ∧ Placed roots owner outer path catalogue state progress.1
  | some outside => Inside roots owner outer path outside here catalogue state progress.1

/-- A namespace without a body is entered when none is open. -/
theorem visitOpening_placed {statement : Node}
    (visited : Visited roots path statement) (opens : opensNamespace statement = true)
    (placed : Placed roots owner outer path catalogue state reading) :
    Lands catalogue ((do enterNamespaceOf statement; return true : Annotating Bool) state)
      fun isOpen later after => isOpen = true ∧
        Midway roots owner outer path (namespacePath path statement) later after
          (reading.within (reading.inClass && continuesScope statement), some reading.inClass) := by
  simp only [opensNamespace, Bool.and_eq_true, decide_eq_true_eq] at opens
  apply (enterNamespaceOf_placed visited opens.1 placed).bind
  intro _ later entered _ inside
  exact Lands.pure ⟨rfl, inside⟩

/-- A statement stands at the path of the last namespace definition without a body before it. -/
theorem visitStatement_placed (reads : Reads roots owner visit read node)
    {here : Path} {statement : Node}
    (lower : statement.tree.height < node.tree.height)
    (visited : Visited roots (if opensNamespace statement then path else here) statement)
    {progress : State × Option Bool}
    (midway : Midway roots owner outer path here catalogue state progress) :
    let further := readStatement read progress
      (if opensNamespace statement then path else here, statement)
    Lands catalogue (visitStatement visit progress.2.isSome statement state)
      fun isOpen later after => isOpen = further.2.isSome ∧
        Midway roots owner outer path
          (if opensNamespace statement then namespacePath path statement else here) later after
          further := by
  obtain ⟨reading, outside⟩ := progress
  unfold visitStatement readStatement
  cases opens : opensNamespace statement with
  | true =>
      rw [opens, if_pos rfl] at visited
      cases outside with
      | none => exact visitOpening_placed visited opens midway.2
      | some flag =>
          apply (leaveNamespace_placed midway).bind
          intro _ _ left _ placed
          exact visitOpening_placed visited opens placed
  | false =>
      rw [opens, if_neg Bool.false_ne_true] at visited
      cases outside with
      | none =>
          obtain ⟨rfl, placed⟩ := midway
          apply (reads statement here lower visited _ _ _ _ placed).bind
          intro _ _ after _ placed
          exact Lands.pure ⟨rfl, rfl, placed⟩
      | some flag =>
          obtain ⟨below, stands, placed⟩ := midway
          apply (reads statement here lower visited _ _ _ _ placed).bind
          intro _ _ after kept placed
          exact Lands.pure ⟨rfl, below, stands.later kept, placed⟩

/-- Statements are placed one after the other, each where the ones before it have led. -/
theorem visitStatements_placed (reads : Reads roots owner visit read node)
    {here : Path} {statements : List Node}
    (lower : forall statement, statement ∈ statements ->
      statement.tree.height < node.tree.height)
    (visited : forall placed, placed ∈ placedStatements path here statements ->
      Visited roots placed.1 placed.2)
    {progress : State × Option Bool}
    (midway : Midway roots owner outer path here catalogue state progress) :
    let further := (placedStatements path here statements).foldl (readStatement read) progress
    Lands catalogue (statements.foldlM (visitStatement visit) progress.2.isSome state)
      fun isOpen later after => isOpen = further.2.isSome ∧
        ∃ last, Midway roots owner outer path last later after further := by
  induction statements generalizing catalogue state here progress with
  | nil => exact Lands.pure ⟨rfl, here, midway⟩
  | cons statement rest inductionHypothesis =>
      simp only [placedStatements_cons, List.forall_mem_cons] at visited lower ⊢
      rw [List.foldlM_cons, List.foldl_cons]
      apply (visitStatement_placed reads lower.1 visited.1 midway).bind
      rintro isOpen _ after _ ⟨rfl, midway⟩
      exact inductionHypothesis lower.2 visited.2 midway

/-- After the last statement the namespace that is still open is left. -/
theorem endStatements_placed {here : Path} {progress : State × Option Bool}
    (midway : Midway roots owner outer path here catalogue state progress) :
    Lands catalogue
      ((if progress.2.isSome then leaveNamespace else pure () : Annotating Unit) state)
      fun _ later after => Placed roots owner outer path later after
        (progress.1.within (progress.2.getD progress.1.inClass)) := by
  obtain ⟨reading, outside⟩ := progress
  cases outside with
  | none => exact Lands.pure midway.2
  | some flag => exact leaveNamespace_placed midway

/-- A program closes the namespace that its last statement left open. -/
theorem visitProgram_placed (reads : Reads roots owner visit read node)
    (visited : Visited roots path node)
    (construct : node.construct = .program)
    (placed : Placed roots owner outer path catalogue state reading) :
    Lands catalogue (visitProgram visit node state) fun _ later after =>
      Placed roots owner outer path later after (readProgram read path node reading) := by
  have parts : placedParts path node = placedStatements path path node.namedChildren := by
    simp [placedParts, construct]
  apply (stampHere_placed placed (visited.stamped (by simp [construct]))).bind
  intro _ _ stamped _ placed
  have midway : Midway roots owner outer path path _ stamped (reading, none) := ⟨rfl, placed⟩
  apply (visitStatements_placed reads (fun _ => lower_of_named)
    (fun inner member => visited.part (parts ▸ member)) midway).bind
  rintro isOpen _ after _ ⟨rfl, last, midway⟩
  unfold readProgram
  rw [parts]
  exact endStatements_placed midway

/-- The body of a namespace stands at the path of the namespace. -/
theorem visitNamespace_placed (reads : Reads roots owner visit read node)
    (visited : Visited roots path node)
    (construct : node.construct = .namespaceDefinition)
    (placed : Placed roots owner outer path catalogue state reading) :
    Lands catalogue (visitNamespace visit node state) fun _ later after =>
      Placed roots owner outer path later after (readNamespace read path node reading) := by
  apply (enterNamespaceOf_placed visited construct placed).bind
  rintro _ _ entered _ ⟨below, stands, inside⟩
  have body : forall part, node.child? "body" = some part ->
      Visited roots (namespacePath path node) part := by
    intro part found
    apply visited.part
    simp [placedParts, walkedParts, construct, found]
  apply (visitPart_placed reads inside body).bind
  intro _ _ last kept inside
  exact leaveNamespace_placed ⟨below, stands.later kept, inside⟩

/-- The parameters of a declaration are bound on entry. -/
theorem bindParameters_placed (placed : Placed roots owner outer path catalogue state reading)
    (entry : ScopeId) (declaration : Node) :
    Lands catalogue (bindParameters entry declaration state) fun _ later after =>
      Placed roots owner outer path later after reading := by
  apply Lands.each (fun later after => Placed roots owner outer path later after reading) _ placed
  rintro ⟨parameter, index⟩ _ catalogue state placed
  dsimp only
  split
  · exact placed.bindOnEntry _ _ _
  · exact Lands.pure placed

/-- A function is declared at the path where it stands, and its body stands there, too. -/
theorem visitFunction_placed (reads : Reads roots owner visit read node)
    (visited : Visited roots path node) (construct : node.construct = .functionDefinition)
    (placed : Placed roots owner outer path catalogue state reading) :
    Lands catalogue (visitFunction visit node state) fun _ later after =>
      Placed roots owner outer path later after (readFunction read path node reading) := by
  obtain ⟨here, stack, stands⟩ := placed.top
  apply Lands.bind_ok (currentScope_eq stack)
  apply (placed.declareFunction stands (declaredName node) node).bind
  rintro entry _ declared _ ⟨placed, inside⟩
  apply (bindParameters_placed placed entry node).bind
  intro _ _ bound kept placed
  exact visitInside_placed reads placed (inside.later kept)
    (visited.stamped (by simp [construct])) (visited.ofFunction (Or.inl construct))

/-- Whether a scope is a class body is known from where it stands. -/
theorem isClassScope_placed (placed : Placed roots owner outer path catalogue state reading)
    {scope : ScopeId} (stands : StandsAt catalogue scope around isClass) :
    isClassScope scope state = .ok isClass state := by
  obtain ⟨place, found, -, rfl⟩ := stands
  obtain ⟨known, present⟩ := placed.catalogued.exists_scope found
  rw [isClassScope_eq, present, placed.catalogued.isClass_iff found present]
  rfl

/-- A method declares no function of the namespace, in a class body or outside. -/
theorem visitMethod_placed (reads : Reads roots owner visit read node)
    (visited : Visited roots path node) (construct : node.construct = .methodDeclaration)
    (placed : Placed roots owner outer path catalogue state reading) :
    Lands catalogue (visitMethod visit node state) fun _ later after =>
      Placed roots owner outer path later after
        (readInside read path node false ["parameters", "body"] reading) := by
  obtain ⟨here, stack, stands⟩ := placed.top
  -- whichever way the entry was opened, it is set up and visited alike
  have visits : forall entry later current, Catalogue.KeepsPlaces catalogue later ->
      Placed roots owner outer path later current reading ∧ StandsAt later entry path false ->
      Lands later
        ((do
          bindParameters entry node
          onRegistry (Scopes.bindOnEntry entry "$this" (.parameter "$this" node (-1)))
          visitInside visit node entry ["parameters", "body"] : Annotating Unit) current)
        fun _ later after => Placed roots owner outer path later after
          (readInside read path node false ["parameters", "body"] reading) := by
    rintro entry later current _ ⟨placed, inside⟩
    apply (bindParameters_placed placed entry node).bind
    intro _ _ bound kept placed
    apply (placed.bindOnEntry entry "$this" _).bind
    intro _ _ ready keptToo placed
    exact visitInside_placed reads placed ((inside.later kept).later keptToo)
      (visited.stamped (by simp [construct])) (visited.ofFunction (Or.inr (Or.inl construct)))
  apply Lands.bind_ok (currentScope_eq stack)
  apply Lands.bind_ok (isClassScope_placed placed stands)
  cases isClass : reading.inClass with
  | true =>
      have declares := placed.declareFunction stands (declaredName node) node
      rw [State.declare, if_pos isClass] at declares
      exact declares.bind visits
  | false => exact (placed.openFunction stands (declaredName node)).bind visits

/-- A captured variable is looked up where the closure stands. -/
theorem captureVariable_placed (placed : Placed roots owner outer path catalogue state reading)
    {scope : ScopeId} (stands : StandsAt catalogue scope path isClass) {captured : Node}
    (stamped : Stamped roots path captured) (entry : ScopeId) :
    Lands catalogue (captureVariable scope entry captured state) fun _ later after =>
      Placed roots owner outer path later after reading := by
  apply (placed.stamps stands stamped).bind
  intro _ _ marked _ placed
  apply Lands.bind_ok (get_eq_ok.2 ⟨rfl, rfl⟩)
  cases marked.registry.resolveVariable scope captured.text with
  | ok binding => exact placed.bindOnEntry entry captured.text binding
  | error fault => exact placed.remarks _

/-- The body of a closure stands where the closure stands. -/
theorem visitClosure_placed (reads : Reads roots owner visit read node)
    (visited : Visited roots path node) (construct : node.construct = .closure)
    (placed : Placed roots owner outer path catalogue state reading) :
    Lands catalogue (visitClosure visit node state) fun _ later after =>
      Placed roots owner outer path later after
        (readInside read path node false ["parameters", "body"] reading) := by
  obtain ⟨here, stack, stands⟩ := placed.top
  apply Lands.bind_ok (currentScope_eq stack)
  apply (placed.openFunction stands "\x7bclosure\x7d").bind
  rintro entry _ opened kept ⟨placed, inside⟩
  apply (bindParameters_placed placed entry node).bind
  intro _ _ bound keptToo placed
  apply (Lands.each (fun later after => Placed roots owner outer path later after reading ∧
    StandsAt later here path reading.inClass ∧ StandsAt later entry path false) _
    ⟨placed, (stands.later kept).later keptToo, inside.later keptToo⟩).bind
  · rintro _ _ captured _ ⟨placed, -, inside⟩
    exact visitInside_placed reads placed inside (visited.stamped (by simp [construct]))
      (visited.ofFunction (Or.inr (Or.inr (Or.inl construct))))
  · rintro captured member catalogue state ⟨placed, outside, inside⟩
    have stamped : Stamped roots path captured :=
      Stamped.marked visited (by simpa [markedParts, construct] using member)
    apply (captureVariable_placed placed outside stamped entry).mono
    intro _ _ _ kept placed
    exact ⟨placed, outside.later kept, inside.later kept⟩

/-- Forks of the current scope one after the other. -/
theorem forks_placed {β : Type} {step : ScopeId -> β -> Annotating ScopeId} {items : List β}
    (forks : β -> Bool)
    (kept : forall item, item ∈ items -> forall scope flag catalogue state,
      Placed roots owner outer path catalogue state reading ->
        StandsAt catalogue scope path flag ->
          Lands catalogue (step scope item state) fun child later after =>
            Placed roots owner outer path later after reading ∧
              StandsAt later child path (flag && !forks item))
    (placed : Placed roots owner outer path catalogue state reading) {scope : ScopeId}
    (stands : StandsAt catalogue scope path isClass) :
    Lands catalogue (items.foldlM step scope state) fun child later after =>
      Placed roots owner outer path later after reading ∧
        StandsAt later child path (isClass && !items.any forks) := by
  rw [← foldl_and_not]
  apply Lands.foldlM (fun flag item => flag && !forks item)
    (fun child later after flag => Placed roots owner outer path later after reading ∧
      StandsAt later child path flag) _ ⟨placed, stands⟩
  rintro item member scope catalogue state flag ⟨placed, stands⟩
  exact kept item member scope flag catalogue state placed stands

/-- A variable is bound in a fork, if a condition holds. -/
theorem forkIf_placed (condition : Bool) {operation : Registering Node ScopeId}
    (placed : Placed roots owner outer path catalogue state reading) {scope : ScopeId}
    (stands : StandsAt catalogue scope path isClass)
    (forks : Lands catalogue (onRegistry operation state) fun child later after =>
      Placed roots owner outer path later after reading ∧ StandsAt later child path false) :
    Lands catalogue
      ((if condition then onRegistry operation else return scope : Annotating ScopeId) state)
      fun child later after => Placed roots owner outer path later after reading ∧
        StandsAt later child path (isClass && !condition) := by
  cases condition with
  | true => simpa using forks
  | false => exact Lands.pure ⟨placed, by simpa using stands⟩

/-- The body of an arrow function stands where the function stands. -/
theorem visitArrowFunction_placed (reads : Reads roots owner visit read node)
    (visited : Visited roots path node) (construct : node.construct = .arrowFunction)
    (placed : Placed roots owner outer path catalogue state reading) :
    Lands catalogue (visitArrowFunction visit node state) fun _ later after =>
      Placed roots owner outer path later after (readArrowFunction read path node reading) := by
  obtain ⟨here, stack, stands⟩ := placed.top
  apply Lands.bind_ok (currentScope_eq stack)
  apply (forks_placed (fun entry : Node × Nat => entry.1.parameterName != "") _ placed stands).bind
  · rintro scope later bound _ ⟨placed, inside⟩
    have indexed : (node.parameters.zipIdx.any fun entry => entry.1.parameterName != "") =
        node.parameters.any fun parameter => parameter.parameterName != "" := by
      conv_rhs => rw [← List.zipIdx_map_fst 0 node.parameters, List.any_map]
      rfl
    rw [indexed] at inside
    exact visitInside_placed reads placed inside (visited.stamped (by simp [construct]))
      (visited.ofFunction (Or.inr (Or.inr (Or.inr construct))))
  · rintro ⟨parameter, index⟩ _ scope flag catalogue state placed stands
    exact forkIf_placed _ placed stands (placed.bindVariable stands parameter.parameterName _)

/-- A class body stands at the path of the class and is marked as a class body. -/
theorem visitClass_placed (reads : Reads roots owner visit read node)
    (visited : Visited roots path node) (construct : node.construct = .classDeclaration)
    (placed : Placed roots owner outer path catalogue state reading) :
    Lands catalogue (visitClass visit node state) fun _ later after =>
      Placed roots owner outer path later after
        (readInside read path node true ["body"] reading) := by
  obtain ⟨here, stack, stands⟩ := placed.top
  apply Lands.bind_ok (currentScope_eq stack)
  apply (placed.declareClass stands (declaredName node) node).bind
  rintro body _ declared _ ⟨placed, inside⟩
  apply visitInside_placed reads placed inside (visited.stamped (by simp [construct]))
  intro label listed part found
  rw [List.mem_singleton.1 listed] at found
  apply visited.walked (by simp [construct]) (by simp [construct])
  simp [walkedParts, construct, found]

/-- Declaring a property moves no scope. -/
theorem visitPropertyPart_placed (placed : Placed roots owner outer path catalogue state reading)
    {home : ScopeId} (stands : StandsAt catalogue home around isClass) (element : Node)
    {part : Node} {further : State}
    (visits : forall catalogue state, Placed roots owner outer path catalogue state reading ->
      Lands catalogue (visit part state) fun _ later after =>
        Placed roots owner outer path later after further) :
    Lands catalogue (visitPropertyPart visit home element part state) fun _ later after =>
      Placed roots owner outer path later after further := by
  unfold visitPropertyPart
  split
  · apply Lands.bind_ok (isClassScope_placed placed stands)
    cases isClass with
    | true =>
        apply (placed.declareProperty home part.text element).bind
        intro _ later declared _ placed
        exact visits later declared placed
    | false => exact visits catalogue state placed
  · exact visits catalogue state placed

/-- The element of a property is visited where the class body stands. -/
theorem visitPropertyElement_placed (reads : Reads roots owner visit read node)
    {element : Node} (lower : element.tree.height < node.tree.height)
    (visited : Visited roots path element)
    (placed : Placed roots owner outer path catalogue state reading) {home : ScopeId}
    (stands : StandsAt catalogue home around isClass) :
    Lands catalogue (visitPropertyElement visit home element state) fun _ later after =>
      Placed roots owner outer path later after
        (if element.kind = "property_element" then readChildren read path element reading
          else read path element reading) := by
  unfold visitPropertyElement
  split
  · rename_i kind
    have construct : element.construct = .plain := by
      rw [Node.construct, kind]
      rfl
    apply (stampHere_placed placed (visited.stamped (by simp [construct]))).bind
    intro _ later stamped kept placed
    apply (Lands.forM (fun current part => read path part current)
      (fun later after reading => Placed roots owner outer path later after reading ∧
        StandsAt later home around isClass) _ ⟨placed, stands.later kept⟩).mono
    · rintro _ _ _ _ ⟨placed, -⟩
      exact placed
    · rintro part member catalogue state reading ⟨placed, stands⟩
      have inner : Visited roots path part := by
        apply visited.walked (by simp [construct]) (by simp [construct])
        simpa [walkedParts, construct] using member
      apply (visitPropertyPart_placed placed stands element _).mono
      · intro _ _ _ kept placed
        exact ⟨placed, stands.later kept⟩
      · intro catalogue state placed
        exact reads part path ((lower_of_named member).trans lower) inner _ _ _ _ placed
  · exact reads element path lower visited _ _ _ _ placed

/-- The elements of a property declaration are visited where the class body stands. -/
theorem visitProperty_placed (reads : Reads roots owner visit read node)
    (visited : Visited roots path node) (construct : node.construct = .propertyDeclaration)
    (placed : Placed roots owner outer path catalogue state reading) :
    Lands catalogue (visitProperty visit node state) fun _ later after =>
      Placed roots owner outer path later after (readProperty read path node reading) := by
  obtain ⟨home, stack, stands⟩ := placed.top
  apply Lands.bind_ok (currentScope_eq stack)
  apply (stampHere_placed placed (visited.stamped (by simp [construct]))).bind
  intro _ later stamped kept placed
  apply (Lands.forM _ (fun later after current =>
    Placed roots owner outer path later after current ∧
      StandsAt later home path reading.inClass) _ ⟨placed, stands.later kept⟩).mono
  · rintro _ _ _ _ ⟨placed, -⟩
    exact placed
  · rintro element member catalogue state current ⟨placed, stands⟩
    have inner := visited.named (by simp [walksAll, construct]) (by simp [construct]) member
    apply (visitPropertyElement_placed reads (lower_of_named member) inner placed stands).mono
    intro _ _ _ kept placed
    exact ⟨placed, stands.later kept⟩

/-- The element of a constant declaration is visited where the declaration stands. -/
theorem visitConstantElement_placed (reads : Reads roots owner visit read node) {element : Node}
    (lower : element.tree.height < node.tree.height) (visited : Visited roots path element)
    (placed : Placed roots owner outer path catalogue state reading) :
    Lands catalogue (visitConstantElement visit element state) fun _ later after =>
      Placed roots owner outer path later after (read path element reading) := by
  have visits {catalogue : Catalogue Node} {state : Annotator}
      (placed : Placed roots owner outer path catalogue state reading) :=
    reads element path lower visited _ _ _ _ placed
  unfold visitConstantElement
  split
  · cases element.namedChildren.head? with
    | none => exact visits placed
    | some first =>
        dsimp only
        split
        · obtain ⟨here, stack, stands⟩ := placed.top
          apply Lands.bind_ok (currentScope_eq stack)
          apply (placed.declareConstant stands first.text element).bind
          intro _ _ declared _ placed
          exact visits placed
        · exact visits placed
  · exact visits placed

/-- Declaring constants moves no scope. -/
theorem visitConstants_placed (reads : Reads roots owner visit read node)
    (visited : Visited roots path node) (construct : node.construct = .constantDeclaration)
    (placed : Placed roots owner outer path catalogue state reading) :
    Lands catalogue (visitConstants visit node state) fun _ later after =>
      Placed roots owner outer path later after (readChildren read path node reading) := by
  apply (stampHere_placed placed (visited.stamped (by simp [construct]))).bind
  intro _ _ stamped _ placed
  apply Lands.forM _ (Placed roots owner outer path) _ placed
  intro element member catalogue state current placed
  have inner := visited.named (by simp [walksAll, construct]) (by simp [construct]) member
  exact visitConstantElement_placed reads (lower_of_named member) inner placed

/-- Forks take the place of the current scope, and the construct that made them is
stamped. -/
theorem settle_placed (placed : Placed roots owner outer path catalogue state reading)
    {scope : ScopeId} {binds : Bool}
    (stands : StandsAt catalogue scope path (reading.inClass && !binds))
    (stamped : Stamped roots path node) :
    Lands catalogue ((do replaceScope scope; stamp node scope : Annotating Unit) state)
      fun _ later after => Placed roots owner outer path later after (reading.bound binds) := by
  apply (placed.replace stands).bind
  rintro _ _ replaced _ ⟨placed, stands⟩
  exact placed.stamps stands stamped

/-- A name of a `global` statement is bound on a child scope, which is no class body. -/
theorem bindGlobalName_placed (placed : Placed roots owner outer path catalogue state reading)
    {scope : ScopeId} (stands : StandsAt catalogue scope path isClass) {child : Node}
    (stamped : Stamped roots path child) :
    Lands catalogue (bindGlobalName node scope child state) fun next later after =>
      Placed roots owner outer path later after reading ∧
        StandsAt later next path (isClass && !child.isVariable) := by
  apply (placed.stamps stands stamped).bind
  intro _ _ marked kept placed
  have still := stands.later kept
  cases child.isVariable with
  | true => simpa using placed.bindByReference still child.text node
  | false =>
      apply (placed.remarks _).bind
      intro _ _ noted keptToo placed
      exact Lands.pure ⟨placed, by simpa using still.later keptToo⟩

/-- After a `global` statement with a variable the current scope is no class body. -/
theorem visitGlobal_placed (visited : Visited roots path node)
    (construct : node.construct = .globalDeclaration)
    (placed : Placed roots owner outer path catalogue state reading) :
    Lands catalogue (visitGlobal node state) fun _ later after =>
      Placed roots owner outer path later after
        (reading.bound (node.namedChildren.any Node.isVariable)) := by
  obtain ⟨here, stack, stands⟩ := placed.top
  apply Lands.bind_ok (currentScope_eq stack)
  apply (forks_placed Node.isVariable _ placed stands).bind
  · rintro scope _ bound _ ⟨placed, stands⟩
    exact settle_placed placed stands (visited.stamped (by simp [construct]))
  · intro child member scope flag catalogue state placed stands
    exact bindGlobalName_placed placed stands
      (Stamped.marked visited (by simpa [markedParts, construct] using member))

/-- After an `unset` of a variable the current scope is no class body. -/
theorem visitUnset_placed (reads : Reads roots owner visit read node)
    (visited : Visited roots path node) (construct : node.construct = .unset)
    (placed : Placed roots owner outer path catalogue state reading) :
    Lands catalogue (visitUnset visit node state) fun _ later after =>
      Placed roots owner outer path later after
        ((readChildren read path node reading).bound (node.namedChildren.any Node.isVariable)) := by
  apply (visitEach_placed reads placed (fun _ => lower_of_named) (fun _ =>
    visited.named (by simp [walksAll, construct]) (by simp [construct]))).bind
  intro _ _ walked _ placed
  obtain ⟨here, stack, stands⟩ := placed.top
  apply Lands.bind_ok (currentScope_eq stack)
  apply (forks_placed Node.isVariable _ placed stands).bind
  · rintro scope _ bound _ ⟨placed, stands⟩
    exact settle_placed placed stands (visited.stamped (by simp [construct]))
  · intro child _ scope flag catalogue state placed stands
    exact forkIf_placed _ placed stands (placed.bindVariable stands child.text _)

/-- Targets are bound on a child scope at the same path, which is no class body. -/
theorem bindTargets_placed (placed : Placed roots owner outer path catalogue state reading)
    {scope : ScopeId} (stands : StandsAt catalogue scope path isClass) (targets : List Node) :
    Lands catalogue (bindTargets node targets scope state) fun child later after =>
      Placed roots owner outer path later after reading ∧
        StandsAt later child path (isClass && !(!targets.isEmpty)) := by
  have binds : (!targets.isEmpty) = targets.any fun _ => true := by cases targets <;> simp
  rw [binds]
  apply forks_placed (fun _ => true) _ placed stands
  intro target _ scope flag catalogue state placed stands
  rw [Bool.not_true, Bool.and_false]
  exact placed.bindVariable stands target.text _

/-- After an assignment to a target the current scope is no class body. -/
theorem visitAssignment_placed (reads : Reads roots owner visit read node)
    (visited : Visited roots path node) (construct : node.construct = .assignment)
    (placed : Placed roots owner outer path catalogue state reading) :
    Lands catalogue (visitAssignment visit node state) fun _ later after =>
      Placed roots owner outer path later after (readAssignment read path node reading) := by
  have part {label : String} (listed : label = "right" ∨ label = "left") :
      forall part, node.child? label = some part -> Visited roots path part := by
    intro part found
    apply visited.walked (by simp [construct]) (by simp [construct])
    rcases listed with rfl | rfl <;> simp [walkedParts, construct, found]
  have binds {targets : List Node} {catalogue : Catalogue Node} {state : Annotator}
      {reading : State} {here : ScopeId}
      (placed : Placed roots owner outer path catalogue state reading)
      (stands : StandsAt catalogue here path reading.inClass) :
      Lands catalogue
        ((do
          let scope ← bindTargets node targets here
          replaceScope scope
          stamp node scope : Annotating Unit) state)
        fun _ later after => Placed roots owner outer path later after
          (reading.bound (!targets.isEmpty)) := by
    apply (bindTargets_placed placed stands targets).bind
    rintro scope _ bound _ ⟨placed, stands⟩
    exact settle_placed placed stands (visited.stamped (by simp [construct]))
  apply (visitPart_placed reads placed (part (Or.inl rfl))).bind
  intro _ _ valued _ placed
  apply (visitPart_placed reads placed (part (Or.inr rfl))).bind
  intro _ _ walked _ placed
  obtain ⟨here, stack, stands⟩ := placed.top
  apply Lands.bind_ok (currentScope_eq stack)
  unfold readAssignment Dictionary.assigned
  cases node.child? "left" with
  | none => exact binds placed stands
  | some target =>
      dsimp only
      split
      · apply (placed.remarks _).bind
        intro _ _ noted kept placed
        exact binds placed (stands.later kept)
      · exact binds placed stands

/-- The body of a loop stands where the loop stands. -/
theorem visitIteration_placed (reads : Reads roots owner visit read node)
    (visited : Visited roots path node) (construct : node.construct = .iteration)
    (placed : Placed roots owner outer path catalogue state reading) :
    Lands catalogue (visitIteration visit node state) fun _ later after =>
      Placed roots owner outer path later after (readIteration read path node reading) := by
  have part {part : Node} (member : part ∈ node.namedChildren) : Visited roots path part :=
    visited.named (by simp [walksAll, construct]) (by simp [construct]) member
  apply (stampHere_placed placed (visited.stamped (by simp [construct]))).bind
  intro _ later stamped _ placed
  have children := visitEach_placed reads placed (fun _ => lower_of_named) (fun _ => part)
  unfold visitChildren readIteration readChildren
  rcases listed : node.namedChildren with _ | ⟨iterated, _ | ⟨binding, body⟩⟩
  · rw [listed] at children
    exact children
  · rw [listed] at children
    exact children
  · rw [listed] at part
    have lower {part : Node} (member : part ∈ iterated :: binding :: body) :
        part.tree.height < node.tree.height := lower_of_named (listed ▸ member)
    have visits {child : Node} (member : child ∈ iterated :: binding :: body)
        {catalogue : Catalogue Node} {state : Annotator} {reading : State}
        (placed : Placed roots owner outer path catalogue state reading) :=
      reads child path (lower member) (part member) _ _ _ _ placed
    apply (visits (List.mem_cons_self ..) placed).bind
    intro _ _ first _ placed
    apply (visits (List.mem_cons_of_mem _ (List.mem_cons_self ..)) placed).bind
    intro _ _ second _ placed
    obtain ⟨here, stack, stands⟩ := placed.top
    apply Lands.bind_ok (currentScope_eq stack)
    apply (bindTargets_placed placed stands binding.targets).bind
    rintro scope _ bound _ ⟨placed, stands⟩
    apply (placed.replace stands).bind
    rintro _ _ replaced _ ⟨placed, -⟩
    have inBody {child : Node} (member : child ∈ body) : child ∈ iterated :: binding :: body :=
      List.mem_cons_of_mem _ (List.mem_cons_of_mem _ member)
    exact visitEach_placed reads placed (fun _ member => lower (inBody member))
      (fun _ member => part (inBody member))

/-- After a static variable the current scope is no class body. -/
theorem visitStaticVariable_placed (reads : Reads roots owner visit read node)
    (visited : Visited roots path node) (construct : node.construct = .staticVariable)
    (placed : Placed roots owner outer path catalogue state reading) :
    Lands catalogue (visitStaticVariable visit node state) fun _ later after =>
      Placed roots owner outer path later after (readStaticVariable read path node reading) := by
  have stamped : Stamped roots path node := visited.stamped (by simp [construct])
  have value : forall part, node.child? "value" = some part -> Visited roots path part := by
    intro part found
    apply visited.walked (by simp [construct]) (by simp [construct])
    simp [walkedParts, construct, found]
  apply (visitPart_placed reads placed value).bind
  intro _ later walked _ placed
  obtain ⟨here, stack, stands⟩ := placed.top
  -- without a variable to bind, the scope stays as it is
  have stays : Lands later (stamp node here walked) fun _ later after =>
      Placed roots owner outer path later after
        ((readPart read path node reading "value").bound false) := by
    rw [State.bound, Bool.not_false, Bool.and_true]
    exact placed.stamps stands stamped
  apply Lands.bind_ok (currentScope_eq stack)
  unfold readStaticVariable
  cases found : node.child? "name" with
  | none => exact stays
  | some name =>
      dsimp only [Option.any_some]
      cases isVariable : name.isVariable with
      | false => exact stays
      | true =>
          have marked : Stamped roots path name :=
            Stamped.marked visited (by simp [markedParts, construct, found, isVariable])
          apply (placed.stamps stands marked).bind
          intro _ _ _ kept placed
          apply (placed.bindVariable (stands.later kept) name.text _).bind
          rintro scope _ bound _ ⟨placed, stands⟩
          apply (placed.replace stands).bind
          rintro _ _ replaced _ ⟨placed, stands⟩
          rw [State.bound, Bool.not_true, Bool.and_false]
          exact placed.stamps stands stamped

/-- A call that defines a constant moves no scope. -/
theorem visitCall_placed (reads : Reads roots owner visit read node)
    (visited : Visited roots path node) (construct : node.construct = .call)
    (placed : Placed roots owner outer path catalogue state reading) :
    Lands catalogue (visitCall visit node state) fun _ later after =>
      Placed roots owner outer path later after (readChildren read path node reading) := by
  apply (stampHere_placed placed (visited.stamped (by simp [construct]))).bind
  intro _ _ stamped _ placed
  apply (visitEach_placed reads placed (fun _ => lower_of_named) (fun _ =>
    visited.named (by simp [walksAll, construct]) (by simp [construct]))).bind
  intro _ _ walked _ placed
  split
  · cases definedConstant? node with
    | none => exact Lands.pure placed
    | some literal =>
        apply Lands.bind_ok (get_eq_ok.2 ⟨rfl, rfl⟩)
        rw [placed.owned]
        exact placed.declareConstant ⟨_, placed.catalogued.global, rfl, rfl⟩ _ node
  · exact Lands.pure placed

/-- Every other construct is visited child by child where it stands. -/
theorem visitPlain_placed (reads : Reads roots owner visit read node)
    (visited : Visited roots path node) (construct : node.construct = .plain)
    (placed : Placed roots owner outer path catalogue state reading) :
    Lands catalogue (visitPlain visit node state) fun _ later after =>
      Placed roots owner outer path later after (readChildren read path node reading) := by
  have visits {catalogue : Catalogue Node} {state : Annotator}
      (placed : Placed roots owner outer path catalogue state reading) :
      Lands catalogue ((do stampHere node; visitChildren visit node : Annotating Unit) state)
        fun _ later after => Placed roots owner outer path later after
          (readChildren read path node reading) := by
    apply (stampHere_placed placed (visited.stamped (by simp [construct]))).bind
    intro _ _ stamped _ placed
    exact visitEach_placed reads placed (fun _ => lower_of_named) (fun _ =>
      visited.named (by simp [walksAll, construct]) (by simp [construct]))
  unfold visitPlain
  split
  · apply (placed.remarks _).bind
    intro _ _ noted _ placed
    exact visits placed
  · exact visits placed

/-- Every rule is followed by the reading of the text. -/
theorem visitNode_placed (reads : Reads roots owner visit read node)
    (visited : Visited roots path node)
    (placed : Placed roots owner outer path catalogue state reading) :
    Lands catalogue (visitNode visit node state) fun _ later after =>
      Placed roots owner outer path later after (readNode read path node reading) := by
  unfold visitNode readNode
  cases construct : node.construct with
  | program => exact visitProgram_placed reads visited construct placed
  | namespaceDefinition => exact visitNamespace_placed reads visited construct placed
  | functionDefinition => exact visitFunction_placed reads visited construct placed
  | methodDeclaration => exact visitMethod_placed reads visited construct placed
  | closure => exact visitClosure_placed reads visited construct placed
  | arrowFunction => exact visitArrowFunction_placed reads visited construct placed
  | classDeclaration => exact visitClass_placed reads visited construct placed
  | propertyDeclaration => exact visitProperty_placed reads visited construct placed
  | constantDeclaration => exact visitConstants_placed reads visited construct placed
  | globalDeclaration => exact visitGlobal_placed visited construct placed
  | unset => exact visitUnset_placed reads visited construct placed
  | assignment => exact visitAssignment_placed reads visited construct placed
  | iteration => exact visitIteration_placed reads visited construct placed
  | staticVariable => exact visitStaticVariable_placed reads visited construct placed
  | call => exact visitCall_placed reads visited construct placed
  | plain => exact visitPlain_placed reads visited construct placed

end Rules

/-- By induction on the height: a visit of a tree is followed by the reading of the
text. -/
theorem visit_placed {height : Nat}
    (bound : node.tree.height <= height) (visited : Visited roots path node)
    (placed : Placed roots owner outer path catalogue state reading) :
    Lands catalogue (visit height node state) fun _ later after =>
      Placed roots owner outer path later after (Lexical.read height path node reading) := by
  induction height generalizing node path outer catalogue state reading with
  | zero =>
      have positive := node.tree.height_pos
      omega
  | succ height inductionHypothesis =>
      apply visitNode_placed _ visited placed
      intro part around lower visited outer catalogue state reading placed
      exact inductionHypothesis (by omega) visited placed

end PhpTaint.Annotation
