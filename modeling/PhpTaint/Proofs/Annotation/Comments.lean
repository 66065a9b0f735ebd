import PhpTaint.Annotation.Visit
import PhpTaint.Proofs.Outcome
import PhpTaint.Proofs.Scopes.TandemOperations
import PhpTaint.Proofs.Syntax.Comments

/-!
# Annotation without comments

Visiting a comment records the scope in which it stands and does nothing else.
So two annotation runs, one over some undisturbed files and one over the same
files without their comments, go side by side: after every rule both have opened
the same scopes and stand in the same scope, and every node that is no comment
is annotated alike.
-/

namespace PhpTaint.Annotation

open Scopes Syntax

/-- Two lists of annotations that put every node that is no comment into the same
scope. -/
def SameNotes (first second : List (Node × ScopeId)) : Prop :=
  forall key : Key, key.kind ≠ "comment" ->
    (first.find? fun entry => entry.1.key = key).map Prod.snd =
      (second.find? fun entry => entry.1.key = key).map Prod.snd

/-- Notes stay the same up to comments when both sides note a node and its stripped form. -/
theorem SameNotes.stripped {first second : List (Node × ScopeId)} (same : SameNotes first second)
    (node : Node) (scope : ScopeId) :
    SameNotes ((node, scope) :: first) ((node.stripped, scope) :: second) := by
  intro key code
  by_cases here : node.key = key
  · simp [here]
  · simpa [here] using same key code

/-- A note on a comment has no counterpart. -/
theorem SameNotes.comment {first second : List (Node × ScopeId)} (same : SameNotes first second)
    {node : Node} (comment : node.isComment = true) (scope : ScopeId) :
    SameNotes ((node, scope) :: first) second := by
  intro key code
  have elsewhere : node.key ≠ key := by
    intro here
    exact code (here ▸ Node.kind_of_isComment comment)
  simpa [elsewhere] using same key code

/-- Two annotation runs side by side, the second over files without comments. -/
structure Annotator.Resembles (first second : Annotator) : Prop where
  registry : first.registry.Resembles Node.StripsTo SameNotes first.globalScope second.registry
  globalScope : second.globalScope = first.globalScope
  stack : second.stack = first.stack

/-- A run that starts resembles itself, whatever notes were taken before. -/
theorem Annotator.start_resembles (journal other : Journal) :
    Annotator.Resembles
      { Annotator.start with registry := { Annotator.start.registry with journal := journal } }
      { Annotator.start with registry := { Annotator.start.registry with journal := other } } where
  registry :=
    { size := rfl
      scopes := by
        intro id
        cases id with
        | zero => exact .some ⟨rfl, rfl, superglobals_resembles 0, .globalRoot .empty⟩
        | succ id => exact .none
      annotations := fun _ _ _ => rfl
      ends := fun _ => rfl
      root := rfl }
  globalScope := rfl
  stack := rfl

/-- Two runs side by side that have entered a program. -/
def Underway (first second : Annotator) : Prop := first.Resembles second ∧ first.stack ≠ []

/-- An operation on the scopes that goes in tandem does so inside an annotation. -/
theorem onRegistry_tandem {α β : Type} {values : α -> β -> Prop} {operation : Registering Node α}
    {other : Registering Node β}
    (step : forall owner, Tandem (Registry.Resembles Node.StripsTo SameNotes owner) values operation
      other) :
    Tandem Underway values (onRegistry operation) (onRegistry other) := by
  rintro first second ⟨before, entered⟩
  unfold onRegistry
  have ended := step first.globalScope _ _ before.registry
  generalize operation first.registry = left at ended
  generalize other second.registry = right at ended
  cases ended with
  | ok related after => exact .ok related ⟨⟨after, before.globalScope, before.stack⟩, entered⟩
  | error fault after => exact .error fault ⟨⟨after, before.globalScope, before.stack⟩, entered⟩

/-- A remark on one side alone leaves the annotations in step. -/
theorem remark_silent (text : String) : Tandem Underway Eq (remark text) (pure ⟨⟩) :=
  Tandem.change_left fun _ _ before =>
    ⟨⟨before.1.registry.write_left _, before.1.globalScope, before.1.stack⟩, before.2⟩

/-- Remarks do not have to say the same on both sides. -/
theorem remark_tandem (text other : String) : Tandem Underway Eq (remark text) (remark other) :=
  Tandem.change fun _ _ before =>
    ⟨⟨(before.1.registry.write_left _).write_right _, before.1.globalScope, before.1.stack⟩,
      before.2⟩

/-- Both sides stand in the same scope. -/
theorem currentScope_tandem : Tandem Underway Eq currentScope currentScope := by
  unfold currentScope
  refine Tandem.get.bind fun first second before => ?_
  rw [before.1.stack]
  cases first.stack with
  | nil => exact Tandem.throw _
  | cons top outer => exact Tandem.pure rfl

theorem replaceScope_tandem (scope : ScopeId) :
    Tandem Underway Eq (replaceScope scope) (replaceScope scope) := by
  unfold replaceScope
  refine Tandem.get.bind fun first second before => ?_
  rw [before.1.stack]
  cases first.stack with
  | nil => exact Tandem.throw _
  | cons top outer =>
      exact Tandem.change fun _ _ states =>
        ⟨⟨states.1.registry, states.1.globalScope, rfl⟩, List.cons_ne_nil _ _⟩

theorem pushScope_tandem (scope : ScopeId) :
    Tandem Underway Eq (pushScope scope) (pushScope scope) :=
  Tandem.change fun _ _ before =>
    ⟨⟨before.1.registry, before.1.globalScope, congrArg (scope :: ·) before.1.stack⟩,
      List.cons_ne_nil _ _⟩

theorem popScope_tandem : Tandem Underway Eq popScope popScope := by
  unfold popScope
  refine Tandem.get.bind fun first second before => ?_
  rw [before.1.stack]
  match first.stack with
  | [] => exact Tandem.throw _
  | [_] => exact Tandem.throw _
  | top :: next :: outer =>
      exact Tandem.bind_eq
        (Tandem.change fun _ _ states =>
          ⟨⟨states.1.registry, states.1.globalScope, rfl⟩, List.cons_ne_nil _ _⟩)
        fun _ => Tandem.pure rfl

/-- A node and its stripped form are stamped with the same scope. -/
theorem stamp_tandem (node : Node) (scope : ScopeId) :
    Tandem Underway Eq (stamp node scope) (stamp node.stripped scope) := by
  unfold stamp
  refine Tandem.get.bind fun first second before => ?_
  rw [before.1.globalScope]
  exact onRegistry_tandem fun _ => annotate_tandem _ scope fun same => same.stripped node scope

theorem stampHere_tandem (node : Node) :
    Tandem Underway Eq (stampHere node) (stampHere node.stripped) :=
  Tandem.bind_eq currentScope_tandem fun scope => stamp_tandem node scope

/-- Both sides record the same scope as the end of a program. -/
theorem endProgram_tandem (scope : ScopeId) :
    Tandem Underway Eq (endProgram scope) (endProgram scope) := by
  unfold endProgram
  refine Tandem.get.bind fun first second before => ?_
  rw [before.1.globalScope]
  exact onRegistry_tandem fun _ => recordProgramEnd_tandem _ scope

/-- Recording where a comment stands changes nothing else. -/
theorem stamp_silent {node : Node} (comment : node.isComment = true) (scope : ScopeId) :
    Tandem Underway Eq (stamp node scope) (pure ⟨⟩) := by
  rintro first second ⟨before, entered⟩
  have ended : EndAlike _ Eq (annotate first.globalScope node scope first.registry)
      (.ok ⟨⟩ second.registry) :=
    annotate_silent scope (fun same => same.comment comment scope) _ _ before.registry
  show EndAlike Underway Eq (onRegistry (annotate first.globalScope node scope) first)
    (.ok ⟨⟩ second)
  unfold onRegistry
  generalize annotate first.globalScope node scope first.registry = outcome at ended
  cases ended with
  | ok _ after => exact .ok rfl ⟨⟨after, before.globalScope, before.stack⟩, entered⟩

/-- A comment that is stamped on one side leaves the annotations in step. -/
theorem stampHere_silent {node : Node} (comment : node.isComment = true) :
    Tandem Underway Eq (stampHere node) (pure ⟨⟩) := by
  rintro first second ⟨before, entered⟩
  obtain ⟨top, outer, stack⟩ := List.exists_cons_of_ne_nil entered
  have current : currentScope first = .ok top first := by
    unfold currentScope
    rw [Outcome.run_get_bind, stack]
    rfl
  show EndAlike Underway Eq (EStateM.bind currentScope (stamp node) first) _
  unfold EStateM.bind
  rw [current]
  exact stamp_silent comment top first second ⟨before, entered⟩

/-- Two visitors side by side: the first visits a part as the second visits the
part without its comments, and it passes over a comment. -/
structure Visits (visit bareVisit : Node -> Annotating Unit) : Prop where
  code : forall part, part.Undisturbed ->
    Tandem Underway Eq (visit part) (bareVisit part.stripped)
  comment : forall part, part.Undisturbed -> part.isComment = true ->
    Tandem Underway Eq (visit part) (pure ⟨⟩)

section Rules

variable {visit bareVisit : Node -> Annotating Unit} {node : Node}

/-- The children are visited in tandem, comments being visited in silence. -/
theorem visitEach_tandem {step bareStep : Node -> Annotating Unit} (undisturbed : node.Undisturbed)
    (steps : Visits step bareStep) :
    Tandem Underway Eq (node.namedChildren.forM step)
      (node.stripped.namedChildren.forM bareStep) := by
  rw [node.namedChildren_stripped]
  refine Tandem.forM_filter (fun part member _ => ?_) fun part member dropped => ?_
  · exact steps.code part (undisturbed.of_mem_namedChildren member)
  · exact steps.comment part (undisturbed.of_mem_namedChildren member) (by simpa using dropped)

/-- All children are visited in tandem. -/
theorem visitChildren_tandem (visits : Visits visit bareVisit) (undisturbed : node.Undisturbed) :
    Tandem Underway Eq (visitChildren visit node) (visitChildren bareVisit node.stripped) :=
  visitEach_tandem undisturbed visits

/-- A labelled part is visited in tandem, since labels are kept. -/
theorem visitPart_tandem (visits : Visits visit bareVisit) (undisturbed : node.Undisturbed)
    {label : String} (labelled : label ≠ "") :
    Tandem Underway Eq (visitPart visit node label) (visitPart bareVisit node.stripped label) := by
  unfold visitPart
  rw [undisturbed.child?_stripped labelled]
  cases found : node.child? label with
  | none => exact Tandem.pure rfl
  | some part => exact visits.code part (undisturbed.of_child? found)

/-- Parts inside a scope of their own are visited in tandem. -/
theorem visitInside_tandem (visits : Visits visit bareVisit) (undisturbed : node.Undisturbed)
    (scope : ScopeId) {labels : List String} (labelled : "" ∉ labels) :
    Tandem Underway Eq (visitInside visit node scope labels)
      (visitInside bareVisit node.stripped scope labels) :=
  Tandem.bind_eq (stamp_tandem node scope) fun _ =>
    Tandem.bind_eq (pushScope_tandem scope) fun _ =>
      Tandem.bind_eq
        (Tandem.forM fun _ listed =>
          visitPart_tandem visits undisturbed fun empty => labelled (empty ▸ listed))
        fun _ => Tandem.bind_eq popScope_tandem fun _ => Tandem.pure rfl

/-- A declaration keeps the name that it declares. -/
theorem declaredName_stripped (undisturbed : node.Undisturbed) :
    declaredName node.stripped = declaredName node := by
  unfold declaredName
  rw [undisturbed.child?_stripped (by decide)]
  cases node.child? "name" with
  | none => rfl
  | some name => exact name.text_stripped

/-- Both sides enter the namespace of the same name. -/
theorem enterNamespaceOf_tandem (undisturbed : node.Undisturbed) :
    Tandem Underway Eq (enterNamespaceOf node) (enterNamespaceOf node.stripped) := by
  unfold enterNamespaceOf
  rw [undisturbed.child?_stripped (by decide)]
  refine Tandem.bind_eq currentScope_tandem fun here => ?_
  have rest : forall scope, Tandem Underway Eq
      (do stamp node scope; pushScope scope)
      (do stamp node.stripped scope; pushScope scope) := fun scope =>
    Tandem.bind_eq (stamp_tandem node scope) fun _ => pushScope_tandem scope
  cases node.child? "name" with
  | none => exact Tandem.bind_eq (Tandem.pure rfl) rest
  | some name =>
      refine Tandem.bind_eq ?_ rest
      show Tandem Underway Eq _ (onRegistry (declareNamespace here name.stripped.text))
      rw [name.text_stripped]
      exact onRegistry_tandem fun _ => declareNamespace_tandem here _

theorem leaveNamespace_tandem : Tandem Underway Eq leaveNamespace leaveNamespace :=
  Tandem.bind_eq popScope_tandem fun scope => endProgram_tandem scope

/-- A namespace definition without a body is one without its comments, too. -/
theorem opensNamespace_stripped (undisturbed : node.Undisturbed) :
    opensNamespace node.stripped = opensNamespace node := by
  unfold opensNamespace
  rw [undisturbed.child?_stripped (by decide), node.construct_stripped, Option.isNone_map]

/-- A statement leaves the same namespace open on both sides. -/
theorem visitStatement_tandem (visits : Visits visit bareVisit) (undisturbed : node.Undisturbed)
    (namespaceOpen : Bool) :
    Tandem Underway Eq (visitStatement visit namespaceOpen node)
      (visitStatement bareVisit namespaceOpen node.stripped) := by
  unfold visitStatement
  rw [opensNamespace_stripped undisturbed]
  refine Tandem.ite (fun _ => ?_) fun _ => ?_
  · have entering : Tandem Underway Eq (do enterNamespaceOf node; return true)
        (do enterNamespaceOf node.stripped; return true) :=
      Tandem.bind_eq (enterNamespaceOf_tandem undisturbed) fun _ => Tandem.pure rfl
    exact Tandem.ite (fun _ => Tandem.bind_eq leaveNamespace_tandem fun _ => entering)
      fun _ => entering
  · exact Tandem.bind_eq (visits.code node undisturbed) fun _ => Tandem.pure rfl

/-- A comment between statements leaves an open namespace open. -/
theorem visitStatement_silent (visits : Visits visit bareVisit) (undisturbed : node.Undisturbed)
    (comment : node.isComment = true) (namespaceOpen : Bool) :
    Tandem Underway Eq (visitStatement visit namespaceOpen node) (pure namespaceOpen) := by
  have plain : opensNamespace node = false := by
    unfold opensNamespace Node.construct
    rw [Node.kind_of_isComment comment]
    rfl
  unfold visitStatement
  rw [plain]
  exact (visits.comment node undisturbed comment).bind_silent fun _ _ => Tandem.pure rfl

/-- A program is visited in tandem, comments between its statements being passed over. -/
theorem visitProgram_tandem (visits : Visits visit bareVisit) (undisturbed : node.Undisturbed) :
    Tandem Underway Eq (visitProgram visit node) (visitProgram bareVisit node.stripped) := by
  unfold visitProgram
  refine Tandem.bind_eq (stampHere_tandem node) fun _ => ?_
  rw [node.namedChildren_stripped]
  refine Tandem.bind_eq (Tandem.foldlM_filter ?_ ?_ rfl) fun namespaceOpen => ?_
  · rintro statement member - namespaceOpen _ rfl
    exact visitStatement_tandem visits (undisturbed.of_mem_namedChildren member) namespaceOpen
  · rintro statement member dropped namespaceOpen _ rfl
    exact visitStatement_silent visits (undisturbed.of_mem_namedChildren member)
      (by simpa using dropped) namespaceOpen
  · exact Tandem.ite (fun _ => leaveNamespace_tandem) fun _ => Tandem.pure rfl

/-- A namespace definition is entered, visited and left in tandem. -/
theorem visitNamespace_tandem (visits : Visits visit bareVisit) (undisturbed : node.Undisturbed) :
    Tandem Underway Eq (visitNamespace visit node) (visitNamespace bareVisit node.stripped) :=
  Tandem.bind_eq (enterNamespaceOf_tandem undisturbed) fun _ =>
    Tandem.bind_eq (visitPart_tandem visits undisturbed (by decide)) fun _ =>
      leaveNamespace_tandem

/-- Both sides bind the same parameters. -/
theorem bindParameters_tandem (undisturbed : node.Undisturbed) (scope : ScopeId) :
    Tandem Underway Eq (bindParameters scope node) (bindParameters scope node.stripped) := by
  unfold bindParameters
  rw [undisturbed.parameters_stripped, List.zipIdx_map]
  refine Tandem.forM_map fun entry member => ?_
  obtain ⟨parameter, index⟩ := entry
  have inside := undisturbed.of_inside (.of_mem_parameters (List.fst_mem_of_mem_zipIdx member))
  dsimp only [Prod.map]
  rw [inside.parameterName_stripped]
  exact Tandem.ite
    (fun _ => onRegistry_tandem fun _ => bindOnEntry_tandem scope _ (.parameter _ _ _ _))
    fun _ => Tandem.pure rfl

/-- A function is declared, bound and visited in tandem. -/
theorem visitFunction_tandem (visits : Visits visit bareVisit) (undisturbed : node.Undisturbed) :
    Tandem Underway Eq (visitFunction visit node) (visitFunction bareVisit node.stripped) := by
  unfold visitFunction
  rw [declaredName_stripped undisturbed]
  refine Tandem.bind_eq currentScope_tandem fun here => ?_
  refine Tandem.bind_eq
    (onRegistry_tandem fun _ => declareFunction_tandem here _ ⟨undisturbed, rfl⟩) fun scope => ?_
  exact Tandem.bind_eq (bindParameters_tandem undisturbed scope) fun _ =>
    visitInside_tandem visits undisturbed scope (by decide)

/-- A scope is a class body on both sides or on neither. -/
theorem isClassScope_tandem (scope : ScopeId) :
    Tandem Underway Eq (isClassScope scope) (isClassScope scope) :=
  Tandem.get.bind fun _ _ before =>
    Tandem.pure (before.1.registry.isSome_members_eq scope).symm

/-- A method is declared, bound and visited in tandem, in a class or outside. -/
theorem visitMethod_tandem (visits : Visits visit bareVisit) (undisturbed : node.Undisturbed) :
    Tandem Underway Eq (visitMethod visit node) (visitMethod bareVisit node.stripped) := by
  unfold visitMethod
  rw [declaredName_stripped undisturbed]
  refine Tandem.bind_eq currentScope_tandem fun here => ?_
  have rest : forall scope, Tandem Underway Eq
      (do
        bindParameters scope node
        onRegistry (bindOnEntry scope "$this" (.parameter "$this" node (-1)))
        visitInside visit node scope ["parameters", "body"])
      (do
        bindParameters scope node.stripped
        onRegistry (bindOnEntry scope "$this" (.parameter "$this" node.stripped (-1)))
        visitInside bareVisit node.stripped scope ["parameters", "body"]) := fun scope =>
    Tandem.bind_eq (bindParameters_tandem undisturbed scope) fun _ =>
      Tandem.bind_eq
        (onRegistry_tandem fun _ => bindOnEntry_tandem scope _ (.parameter _ _ _ _))
        fun _ => visitInside_tandem visits undisturbed scope (by decide)
  refine Tandem.bind_eq (isClassScope_tandem here) fun isClass => ?_
  refine Tandem.ite (fun _ => ?_) fun _ => ?_
  · exact Tandem.bind_eq
      (onRegistry_tandem fun _ => declareFunction_tandem here _ ⟨undisturbed, rfl⟩) rest
  · exact Tandem.bind_eq (onRegistry_tandem fun _ => openFunction_tandem _ _) rest

/-- A captured variable is bound to the same value or reference. -/
theorem captureVariable_tandem (outer scope : ScopeId) (captured : Node) :
    Tandem Underway Eq (captureVariable outer scope captured)
      (captureVariable outer scope captured.stripped) := by
  unfold captureVariable
  rw [captured.text_stripped, captured.line_stripped]
  refine Tandem.bind_eq (stamp_tandem captured outer) fun _ => ?_
  refine Tandem.get.bind fun first second before => ?_
  have found := before.1.registry.resolveVariable outer captured.text
  generalize first.registry.resolveVariable outer captured.text = left at found
  generalize second.registry.resolveVariable outer captured.text = right at found
  cases found with
  | ok related => exact onRegistry_tandem fun _ => bindOnEntry_tandem scope _ related
  | error fault => exact remark_tandem _ _

/-- A closure captures the same variables without its comments. -/
theorem capturedVariables_stripped (undisturbed : node.Undisturbed) :
    capturedVariables node.stripped = (capturedVariables node).map Node.stripped := by
  have clauses := @Node.filter_namedChildren_stripped node
    (fun kind => kind = "anonymous_function_use_clause") (by decide)
  unfold capturedVariables
  rw [clauses, List.flatMap_map, List.map_flatMap]
  refine List.flatMap_congr fun clause listed => ?_
  have inside := undisturbed.of_mem_namedChildren (List.mem_filter.1 listed).1
  rw [clause.namedChildren_stripped]
  refine flatMap_kept (fun part _ dropped => ?_) fun part member => ?_
  · exact List.map_eq_nil_iff.2 (Tree.targets_of_dropped dropped)
  · exact (inside.of_mem_namedChildren member).targets_stripped

/-- A closure captures the same variables and is visited in tandem. -/
theorem visitClosure_tandem (visits : Visits visit bareVisit) (undisturbed : node.Undisturbed) :
    Tandem Underway Eq (visitClosure visit node) (visitClosure bareVisit node.stripped) := by
  unfold visitClosure
  rw [capturedVariables_stripped undisturbed]
  refine Tandem.bind_eq currentScope_tandem fun outer => ?_
  refine Tandem.bind_eq (onRegistry_tandem fun _ => openFunction_tandem _ _) fun scope => ?_
  refine Tandem.bind_eq (bindParameters_tandem undisturbed scope) fun _ => ?_
  refine Tandem.bind_eq
    (Tandem.forM_map fun captured _ => captureVariable_tandem outer scope captured) fun _ => ?_
  exact visitInside_tandem visits undisturbed scope (by decide)

/-- An arrow function opens a scope inside the same one and is visited in tandem. -/
theorem visitArrowFunction_tandem (visits : Visits visit bareVisit)
    (undisturbed : node.Undisturbed) :
    Tandem Underway Eq (visitArrowFunction visit node)
      (visitArrowFunction bareVisit node.stripped) := by
  unfold visitArrowFunction
  rw [undisturbed.parameters_stripped, List.zipIdx_map]
  refine Tandem.bind_eq currentScope_tandem fun here => ?_
  refine Tandem.bind_eq (Tandem.foldlM_map ?_ rfl) fun scope =>
    visitInside_tandem visits undisturbed scope (by decide)
  rintro ⟨parameter, index⟩ member scope _ rfl
  have inside := undisturbed.of_inside (.of_mem_parameters (List.fst_mem_of_mem_zipIdx member))
  unfold bindArrowParameter
  dsimp only [Prod.map]
  rw [inside.parameterName_stripped]
  exact Tandem.ite
    (fun _ => onRegistry_tandem fun _ => bindVariable_tandem scope _ (.parameter _ _ _ _))
    fun _ => Tandem.pure rfl

/-- A class is declared under the same name and visited in tandem. -/
theorem visitClass_tandem (visits : Visits visit bareVisit) (undisturbed : node.Undisturbed) :
    Tandem Underway Eq (visitClass visit node) (visitClass bareVisit node.stripped) := by
  unfold visitClass
  rw [declaredName_stripped undisturbed]
  refine Tandem.bind_eq currentScope_tandem fun here => ?_
  exact Tandem.bind_eq (onRegistry_tandem fun _ => declareClass_tandem here _ _ _) fun scope =>
    visitInside_tandem visits undisturbed scope (by decide)

/-- The parts of a property are visited in tandem, where a comment declares nothing. -/
theorem visitPropertyPart_visits (visits : Visits visit bareVisit) (owner : ScopeId)
    (element : Node) :
    Visits (visitPropertyPart visit owner element)
      (visitPropertyPart bareVisit owner element.stripped) where
  code part undisturbed := by
    unfold visitPropertyPart
    rw [part.isVariable_stripped, part.text_stripped]
    have visiting : Tandem Underway Eq (visit part) (bareVisit part.stripped) :=
      visits.code part undisturbed
    refine Tandem.ite (fun _ => ?_) fun _ => visiting
    refine Tandem.bind_eq (isClassScope_tandem owner) fun isClass => ?_
    exact Tandem.ite
      (fun _ => Tandem.bind_eq
        (onRegistry_tandem fun _ => declareProperty_tandem owner _ _ _) fun _ => visiting)
      fun _ => visiting
  comment part undisturbed comment := by
    have plain : part.isVariable = false := by
      unfold Node.isVariable
      rw [Node.kind_of_isComment comment]
      rfl
    unfold visitPropertyPart
    rw [plain]
    exact visits.comment part undisturbed comment

/-- A property is declared on both sides by the same element. -/
theorem visitPropertyElement_visits (visits : Visits visit bareVisit) (owner : ScopeId) :
    Visits (visitPropertyElement visit owner) (visitPropertyElement bareVisit owner) where
  code element undisturbed := by
    unfold visitPropertyElement
    rw [element.kind_stripped]
    exact Tandem.ite
      (fun _ => Tandem.bind_eq (stampHere_tandem element) fun _ =>
        visitEach_tandem undisturbed (visitPropertyPart_visits visits owner element))
      fun _ => visits.code element undisturbed
  comment element undisturbed comment := by
    have other : ¬ element.kind = "property_element" := by
      rw [Node.kind_of_isComment comment]
      decide
    unfold visitPropertyElement
    rw [if_neg other]
    exact visits.comment element undisturbed comment

/-- The elements of a property declaration are declared in tandem. -/
theorem visitProperty_tandem (visits : Visits visit bareVisit) (undisturbed : node.Undisturbed) :
    Tandem Underway Eq (visitProperty visit node) (visitProperty bareVisit node.stripped) :=
  Tandem.bind_eq currentScope_tandem fun owner =>
    Tandem.bind_eq (stampHere_tandem node) fun _ =>
      visitEach_tandem undisturbed (visitPropertyElement_visits visits owner)

/-- A constant is declared on both sides by the same element. -/
theorem visitConstantElement_visits (visits : Visits visit bareVisit) :
    Visits (visitConstantElement visit) (visitConstantElement bareVisit) where
  code element undisturbed := by
    have visiting : Tandem Underway Eq (visit element) (bareVisit element.stripped) :=
      visits.code element undisturbed
    unfold visitConstantElement
    rw [element.kind_stripped]
    refine Tandem.ite (fun isElement => ?_) fun _ => visiting
    rw [undisturbed.head?_stripped (by rw [isElement]; decide)]
    cases element.namedChildren.head? with
    | none => exact visiting
    | some first =>
        show Tandem Underway Eq (if first.kind = "name" then _ else _)
          (if first.stripped.kind = "name" then _ else _)
        rw [first.kind_stripped, first.text_stripped]
        refine Tandem.ite (fun _ => ?_) fun _ => visiting
        refine Tandem.bind_eq currentScope_tandem fun here => ?_
        exact Tandem.bind_eq
          (onRegistry_tandem fun _ => declareConstant_tandem here _ _ _) fun _ => visiting
  comment element undisturbed comment := by
    have other : ¬ element.kind = "const_element" := by
      rw [Node.kind_of_isComment comment]
      decide
    unfold visitConstantElement
    rw [if_neg other]
    exact visits.comment element undisturbed comment

/-- The elements of a constant declaration are declared in tandem. -/
theorem visitConstants_tandem (visits : Visits visit bareVisit) (undisturbed : node.Undisturbed) :
    Tandem Underway Eq (visitConstants visit node) (visitConstants bareVisit node.stripped) :=
  Tandem.bind_eq (stampHere_tandem node) fun _ =>
    visitEach_tandem undisturbed (visitConstantElement_visits visits)

/-- A comment is no variable. -/
theorem isVariable_of_isComment {part : Node} (comment : part.isComment = true) :
    part.isVariable = false := by
  unfold Node.isVariable
  rw [Node.kind_of_isComment comment]
  rfl

/-- A `global` statement binds the same names, a comment among them binding none. -/
theorem visitGlobal_tandem : Tandem Underway Eq (visitGlobal node) (visitGlobal node.stripped) := by
  unfold visitGlobal
  rw [node.namedChildren_stripped]
  refine Tandem.bind_eq currentScope_tandem fun here => ?_
  refine Tandem.bind_eq (Tandem.foldlM_filter ?_ ?_ rfl) fun scope =>
    Tandem.bind_eq (replaceScope_tandem scope) fun _ => stamp_tandem node scope
  · rintro child - - scope _ rfl
    unfold bindGlobalName
    rw [child.isVariable_stripped, child.text_stripped, child.line_stripped]
    refine Tandem.bind_eq (stamp_tandem child scope) fun _ => ?_
    exact Tandem.ite
      (fun _ => onRegistry_tandem fun _ => bindByReference_tandem scope _ _ _)
      fun _ => Tandem.bind_eq (remark_tandem _ _) fun _ => Tandem.pure rfl
  · rintro child - dropped scope _ rfl
    have comment : child.isComment = true := by simpa using dropped
    unfold bindGlobalName
    rw [isVariable_of_isComment comment]
    exact (stamp_silent comment scope).bind_silent fun _ _ =>
      (remark_silent _).bind_silent fun _ _ => Tandem.pure rfl

/-- An `unset` forgets the same variables on both sides. -/
theorem visitUnset_tandem (visits : Visits visit bareVisit) (undisturbed : node.Undisturbed) :
    Tandem Underway Eq (visitUnset visit node) (visitUnset bareVisit node.stripped) := by
  unfold visitUnset
  refine Tandem.bind_eq (visitChildren_tandem visits undisturbed) fun _ => ?_
  rw [node.namedChildren_stripped]
  refine Tandem.bind_eq currentScope_tandem fun here => ?_
  refine Tandem.bind_eq (Tandem.foldlM_filter ?_ ?_ rfl) fun scope =>
    Tandem.bind_eq (replaceScope_tandem scope) fun _ => stamp_tandem node scope
  · rintro child - - scope _ rfl
    unfold unbindName
    rw [child.isVariable_stripped, child.text_stripped]
    exact Tandem.ite
      (fun _ => onRegistry_tandem fun _ => bindVariable_tandem scope _ .unset)
      fun _ => Tandem.pure rfl
  · rintro child - dropped scope _ rfl
    unfold unbindName
    rw [isVariable_of_isComment (by simpa using dropped)]
    exact Tandem.pure rfl

/-- The targets of an assignment are bound to a node and to its stripped form. -/
theorem bindTargets_tandem (undisturbed : node.Undisturbed) (targets : List Node)
    (scope : ScopeId) :
    Tandem Underway Eq (bindTargets node targets scope)
      (bindTargets node.stripped (targets.map Node.stripped) scope) := by
  refine Tandem.foldlM_map ?_ rfl
  rintro target - current _ rfl
  rw [target.text_stripped]
  exact onRegistry_tandem fun _ => bindByValue_tandem current _ ⟨undisturbed, rfl⟩

/-- An assignment binds the same targets on both sides. -/
theorem visitAssignment_tandem (visits : Visits visit bareVisit) (undisturbed : node.Undisturbed) :
    Tandem Underway Eq (visitAssignment visit node) (visitAssignment bareVisit node.stripped) := by
  unfold visitAssignment
  refine Tandem.bind_eq (visitPart_tandem visits undisturbed (by decide)) fun _ => ?_
  refine Tandem.bind_eq (visitPart_tandem visits undisturbed (by decide)) fun _ => ?_
  refine Tandem.bind_eq currentScope_tandem fun here => ?_
  have binding : forall targets : List Node, Tandem Underway Eq
      (do
        let scope ← bindTargets node targets here
        replaceScope scope
        stamp node scope)
      (do
        let scope ← bindTargets node.stripped (targets.map Node.stripped) here
        replaceScope scope
        stamp node.stripped scope) := fun targets =>
    Tandem.bind_eq (bindTargets_tandem undisturbed targets here) fun scope =>
      Tandem.bind_eq (replaceScope_tandem scope) fun _ => stamp_tandem node scope
  rw [undisturbed.child?_stripped (by decide)]
  cases found : node.child? "left" with
  | none => exact binding []
  | some target =>
      have targets := (undisturbed.of_child? found).targets_stripped
      dsimp only [Option.map_some]
      simp only [targets, List.isEmpty_map]
      exact Tandem.ite
        (fun _ => Tandem.bind_eq (remark_tandem _ _) fun _ => binding target.targets)
        fun _ => binding target.targets

/-- Every iteration is a `foreach` statement. -/
theorem kind_of_iteration (iteration : node.construct = .iteration) :
    node.kind = "foreach_statement" := by
  unfold Node.construct Construct.ofKind at iteration
  split at iteration <;> first | assumption | cases iteration

/-- A loop finds its expression and its variables in the same places, since no comment leads. -/
theorem visitIteration_tandem (visits : Visits visit bareVisit) (undisturbed : node.Undisturbed)
    (iteration : node.construct = .iteration) :
    Tandem Underway Eq (visitIteration visit node) (visitIteration bareVisit node.stripped) := by
  have leading : Tree.leadingParts node.kind = 2 := by
    rw [kind_of_iteration iteration]
    rfl
  have code : forall part, part ∈ node.namedChildren.take 2 -> part.isComment = false :=
    fun part member => undisturbed.not_isComment_of_leading (leading ▸ member)
  have inside : forall part, part ∈ node.namedChildren -> part.Undisturbed :=
    fun part member => undisturbed.of_mem_namedChildren member
  have children := visitChildren_tandem visits undisturbed
  unfold visitIteration
  refine Tandem.bind_eq (stampHere_tandem node) fun _ => ?_
  rw [node.namedChildren_stripped]
  -- The two parts that are told by their places keep them.
  match parts : node.namedChildren with
  | [] => exact children
  | [iterated] =>
      rw [parts] at code
      simpa [code iterated (by simp)] using children
  | iterated :: binding :: body =>
      rw [parts] at code inside
      rw [List.filter_cons_of_pos (by simp [code iterated (by simp)]),
        List.filter_cons_of_pos (by simp [code binding (by simp)])]
      refine Tandem.bind_eq (visits.code iterated (inside _ (by simp))) fun _ => ?_
      refine Tandem.bind_eq (visits.code binding (inside _ (by simp))) fun _ => ?_
      refine Tandem.bind_eq currentScope_tandem fun here => ?_
      rw [(inside binding (by simp)).targets_stripped]
      refine Tandem.bind_eq (bindTargets_tandem undisturbed _ here) fun scope => ?_
      refine Tandem.bind_eq (replaceScope_tandem scope) fun _ => ?_
      refine Tandem.forM_filter (fun part member _ => ?_) fun part member dropped => ?_
      · exact visits.code part (inside part (by simp [member]))
      · exact visits.comment part (inside part (by simp [member])) (by simpa using dropped)

/-- A static variable is bound under the same name on both sides. -/
theorem visitStaticVariable_tandem (visits : Visits visit bareVisit)
    (undisturbed : node.Undisturbed) :
    Tandem Underway Eq (visitStaticVariable visit node)
      (visitStaticVariable bareVisit node.stripped) := by
  unfold visitStaticVariable
  refine Tandem.bind_eq (visitPart_tandem visits undisturbed (by decide)) fun _ => ?_
  refine Tandem.bind_eq currentScope_tandem fun here => ?_
  have ending := fun scope => stamp_tandem node scope
  rw [undisturbed.child?_stripped (by decide)]
  cases node.child? "name" with
  | none => exact Tandem.bind_eq (Tandem.pure rfl) ending
  | some name =>
      dsimp only [Option.map_some]
      rw [name.isVariable_stripped, name.text_stripped]
      refine Tandem.ite (fun _ => ?_) fun _ => Tandem.bind_eq (Tandem.pure rfl) ending
      refine Tandem.bind_eq (stamp_tandem name here) fun _ => ?_
      refine Tandem.bind_eq
        (onRegistry_tandem fun _ => bindByValue_tandem here _ ⟨undisturbed, rfl⟩) fun bound => ?_
      exact Tandem.bind_eq (replaceScope_tandem bound) fun _ =>
        Tandem.bind_eq (Tandem.pure rfl) ending

/-- A call without its comments defines the same constant. -/
theorem definedConstant?_stripped (undisturbed : node.Undisturbed) :
    definedConstant? node.stripped = (definedConstant? node).map Node.stripped := by
  unfold definedConstant?
  rw [undisturbed.arguments_stripped, List.head?_map]
  cases listed : node.arguments.head? with
  | none => rfl
  | some first =>
      have member := List.mem_of_mem_head? listed
      have inside := undisturbed.of_inside (.of_mem_arguments member)
      have argument : first.kind = "argument" := by
        unfold Node.arguments at member
        split at member
        · simpa using (List.mem_filter.1 member).2
        · cases member
      dsimp only [Option.map_some]
      rw [inside.getLast?_stripped (by rw [argument]; decide)]
      cases first.namedChildren.getLast? with
      | none => rfl
      | some literal =>
          dsimp only [Option.map_some]
          rw [literal.kind_stripped]
          split <;> rfl

/-- A call that defines a constant defines it on both sides. -/
theorem visitCall_tandem (visits : Visits visit bareVisit) (undisturbed : node.Undisturbed) :
    Tandem Underway Eq (visitCall visit node) (visitCall bareVisit node.stripped) := by
  unfold visitCall definesConstant
  rw [undisturbed.calleeName_stripped, definedConstant?_stripped undisturbed]
  refine Tandem.bind_eq (stampHere_tandem node) fun _ => ?_
  refine Tandem.bind_eq (visitChildren_tandem visits undisturbed) fun _ => ?_
  refine Tandem.ite (fun _ => ?_) fun _ => Tandem.pure rfl
  cases definedConstant? node with
  | none => exact Tandem.pure rfl
  | some literal =>
      dsimp only [Option.map_some]
      rw [literal.text_stripped]
      refine Tandem.get.bind fun first second before => ?_
      rw [before.1.globalScope]
      exact onRegistry_tandem fun _ => declareConstant_tandem _ _ _ _

/-- Every other construct is stamped and visited in tandem. -/
theorem visitPlain_tandem (visits : Visits visit bareVisit) (undisturbed : node.Undisturbed) :
    Tandem Underway Eq (visitPlain visit node) (visitPlain bareVisit node.stripped) := by
  unfold visitPlain
  rw [node.kind_stripped, node.line_stripped]
  have visiting : Tandem Underway Eq (do stampHere node; visitChildren visit node)
      (do stampHere node.stripped; visitChildren bareVisit node.stripped) :=
    Tandem.bind_eq (stampHere_tandem node) fun _ => visitChildren_tandem visits undisturbed
  exact Tandem.ite (fun _ => Tandem.bind_eq (remark_tandem _ _) fun _ => visiting)
    fun _ => visiting

/-- Every rule of the annotation keeps the two sides in tandem. -/
theorem visitNode_tandem (visits : Visits visit bareVisit) (undisturbed : node.Undisturbed) :
    Tandem Underway Eq (visitNode visit node) (visitNode bareVisit node.stripped) := by
  unfold visitNode
  rw [node.construct_stripped]
  cases construct : node.construct with
  | program => exact visitProgram_tandem visits undisturbed
  | namespaceDefinition => exact visitNamespace_tandem visits undisturbed
  | functionDefinition => exact visitFunction_tandem visits undisturbed
  | methodDeclaration => exact visitMethod_tandem visits undisturbed
  | closure => exact visitClosure_tandem visits undisturbed
  | arrowFunction => exact visitArrowFunction_tandem visits undisturbed
  | classDeclaration => exact visitClass_tandem visits undisturbed
  | propertyDeclaration => exact visitProperty_tandem visits undisturbed
  | constantDeclaration => exact visitConstants_tandem visits undisturbed
  | globalDeclaration => exact visitGlobal_tandem
  | unset => exact visitUnset_tandem visits undisturbed
  | assignment => exact visitAssignment_tandem visits undisturbed
  | iteration => exact visitIteration_tandem visits undisturbed construct
  | staticVariable => exact visitStaticVariable_tandem visits undisturbed
  | call => exact visitCall_tandem visits undisturbed
  | plain => exact visitPlain_tandem visits undisturbed

/-- Visiting a comment records where it stands and nothing else. -/
theorem visitNode_silent (undisturbed : node.Undisturbed) (comment : node.isComment = true) :
    Tandem Underway Eq (visitNode visit node) (pure ⟨⟩) := by
  have plain : node.construct = .plain := by
    unfold Node.construct
    rw [Node.kind_of_isComment comment]
    rfl
  have familiar : isFamiliarKind node.kind = true := by
    rw [Node.kind_of_isComment comment]
    decide
  unfold visitNode visitPlain visitChildren
  rw [plain, familiar, undisturbed.namedChildren_of_isComment comment]
  exact (stampHere_silent comment).bind_silent fun _ _ => Tandem.pure rfl

end Rules

/-- A visit of a node goes side by side with the visit of the node without its
comments. -/
theorem visit_visits (height : Nat) : Visits (visit height) (visit height) := by
  induction height with
  | zero => exact ⟨fun _ _ => Tandem.pure rfl, fun _ _ _ => Tandem.pure rfl⟩
  | succ height inductionHypothesis =>
      exact ⟨fun _ undisturbed => visitNode_tandem inductionHypothesis undisturbed,
        fun _ undisturbed comment => visitNode_silent undisturbed comment⟩

/-- Annotating an undisturbed file goes side by side with annotating it without
its comments. -/
theorem annotateProgram_tandem {root : Node} (undisturbed : root.Undisturbed) :
    Tandem Annotator.Resembles Eq (annotateProgram root) (annotateProgram root.stripped) := by
  intro first second before
  have entered : Underway { first with stack := [first.globalScope] }
      { second with stack := [second.globalScope] } :=
    ⟨⟨before.registry, before.globalScope, by rw [before.globalScope]⟩, List.cons_ne_nil _ _⟩
  unfold annotateProgram
  rw [Node.tree_stripped, Tree.height_stripped undisturbed]
  refine EndAlike.of_modify_bind entered (fun _ _ underway => underway.1) ?_
  refine Tandem.bind_eq ((visit_visits _).code root undisturbed) fun _ => ?_
  refine Tandem.get.bind fun first second before => ?_
  have describes : second.registry.describe = first.registry.describe :=
    funext before.1.registry.describe_eq
  rw [before.1.stack, describes]
  split
  · exact Tandem.bind_eq (endProgram_tandem _) fun _ => Tandem.pure rfl
  · exact Tandem.throw _

end PhpTaint.Annotation
