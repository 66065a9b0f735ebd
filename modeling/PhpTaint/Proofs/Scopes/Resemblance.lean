import PhpTaint.Proofs.Scopes.Variables
import PhpTaint.Proofs.Tandem

/-!
# Registries that resemble each other

Two registries resemble each other when they hold the same scopes under the same
identifiers, and what the one binds to a node, the other binds to a related
node. How the nodes and the annotations are related is left open. Lookups in such
registries give related answers, and operations on them keep the resemblance.

Tables that no lookup of an analysis reads, those of classes, constants and
members, do not have to resemble each other, and neither do the notes.
-/

namespace PhpTaint.Scopes

variable {ν μ : Type}

/-- Two bindings of one kind, to related nodes where a node is followed. -/
inductive Binding.Resembles (nodes : ν -> μ -> Prop) : Binding ν -> Binding μ -> Prop where
  | referent {first : ν} {second : μ} (related : nodes first second) :
      Resembles nodes (.referent first) (.referent second)
  | parameter (name : String) (first : ν) (second : μ) (index : Int) :
      Resembles nodes (.parameter name first index) (.parameter name second index)
  | superglobal (name : String) (owner : ScopeId) :
      Resembles nodes (.superglobal name owner) (.superglobal name owner)
  | globalReference (name : String) (first : ν) (second : μ) (owner : ScopeId) :
      Resembles nodes (.globalReference name first owner) (.globalReference name second owner)
  | unset : Resembles nodes .unset .unset

/-- Namespaces that declare related functions and the same namespaces. -/
structure Symbols.Resembles (nodes : ν -> μ -> Prop) (first : Symbols ν) (second : Symbols μ) :
    Prop where
  functions : first.functions.Resembles nodes second.functions
  namespaces : second.namespaces = first.namespaces

/-- Two bodies of one kind. -/
inductive Body.Resembles (nodes : ν -> μ -> Prop) : Body ν -> Body μ -> Prop where
  | block : Resembles nodes .block .block
  | functionEntry : Resembles nodes .functionEntry .functionEntry
  | classBody (first : Members ν) (second : Members μ) :
      Resembles nodes (.classBody first) (.classBody second)
  | namespaceRoot {first : Symbols ν} {second : Symbols μ} (symbols : first.Resembles nodes second) :
      Resembles nodes (.namespaceRoot first) (.namespaceRoot second)
  | continuation : Resembles nodes .continuation .continuation
  | globalRoot {first : Symbols ν} {second : Symbols μ} (symbols : first.Resembles nodes second) :
      Resembles nodes (.globalRoot first) (.globalRoot second)

/-- Two scopes with related bindings. -/
structure Scope.Resembles (nodes : ν -> μ -> Prop) (first : Scope ν) (second : Scope μ) : Prop where
  name : second.name = first.name
  parent : second.parent = first.parent
  bindings : first.bindings.Resembles (Binding.Resembles nodes) second.bindings
  body : first.body.Resembles nodes second.body

/-- Two registries with related scopes, related annotations and the same ends of
programs; `owner` is a global scope of both. -/
structure Registry.Resembles (nodes : ν -> μ -> Prop)
    (notes : List (ν × ScopeId) -> List (μ × ScopeId) -> Prop) (owner : ScopeId)
    (first : Registry ν) (second : Registry μ) : Prop where
  size : second.scopes.size = first.scopes.size
  scopes : forall id, Option.Rel (Scope.Resembles nodes) (first.scope? id) (second.scope? id)
  annotations : forall id, notes (first.historyOf id).annotations (second.historyOf id).annotations
  ends : forall id, (second.historyOf id).programEnds = (first.historyOf id).programEnds
  root : first.isGlobal owner = true

namespace Symbols.Resembles

variable {nodes : ν -> μ -> Prop}

theorem empty : (∅ : Symbols ν).Resembles nodes (∅ : Symbols μ) := ⟨.empty, rfl⟩

end Symbols.Resembles

namespace Body.Resembles

variable {nodes : ν -> μ -> Prop} {first : Body ν} {second : Body μ}

/-- Bodies that resemble each other are boundaries both or neither. -/
theorem isBoundary_eq (resembles : first.Resembles nodes second) :
    second.isBoundary = first.isBoundary := by
  cases resembles <;> rfl

theorem isGlobal_eq (resembles : first.Resembles nodes second) :
    second.isGlobal = first.isGlobal := by
  cases resembles <;> rfl

theorem label_eq (resembles : first.Resembles nodes second) : second.label = first.label := by
  cases resembles <;> rfl

/-- Bodies that resemble each other belong to classes both or neither. -/
theorem isSome_members?_eq (resembles : first.Resembles nodes second) :
    second.members?.isSome = first.members?.isSome := by
  cases resembles <;> rfl

/-- What follows on bodies that resemble each other resembles each other, too. -/
theorem successor (resembles : first.Resembles nodes second) :
    first.successor.Resembles nodes second.successor := by
  cases resembles
  case block | functionEntry | classBody => exact .block
  case namespaceRoot | continuation | globalRoot => exact .continuation

/-- Bodies that resemble each other declare symbols that do so. -/
theorem symbols (resembles : first.Resembles nodes second) :
    (first.symbols?.getD ∅).Resembles nodes (second.symbols?.getD ∅) := by
  cases resembles
  case namespaceRoot symbols | globalRoot symbols => exact symbols
  all_goals exact .empty

/-- Changes that keep symbols alike keep bodies alike. -/
theorem updateSymbols (resembles : first.Resembles nodes second) {change : Symbols ν -> Symbols ν}
    {other : Symbols μ -> Symbols μ}
    (kept : forall symbols others, symbols.Resembles nodes others ->
      (change symbols).Resembles nodes (other others)) :
    (first.updateSymbols change).Resembles nodes (second.updateSymbols other) := by
  cases resembles with
  | namespaceRoot symbols => exact .namespaceRoot (kept _ _ symbols)
  | globalRoot symbols => exact .globalRoot (kept _ _ symbols)
  | block => exact .block
  | functionEntry => exact .functionEntry
  | classBody => exact .classBody _ _
  | continuation => exact .continuation

/-- Members are not compared, so any changes to them keep bodies alike. -/
theorem updateMembers (resembles : first.Resembles nodes second) (change : Members ν -> Members ν)
    (other : Members μ -> Members μ) :
    (first.updateMembers change).Resembles nodes (second.updateMembers other) := by
  cases resembles with
  | classBody => exact .classBody _ _
  | namespaceRoot symbols => exact .namespaceRoot symbols
  | globalRoot symbols => exact .globalRoot symbols
  | block => exact .block
  | functionEntry => exact .functionEntry
  | continuation => exact .continuation

end Body.Resembles

/-- The superglobals resemble themselves, since no node defines them. -/
theorem superglobals_resembles {nodes : ν -> μ -> Prop} (owner : ScopeId) :
    (superglobals owner : Table String (Binding ν)).Resembles (Binding.Resembles nodes)
      (superglobals owner : Table String (Binding μ)) := by
  unfold superglobals Table.ofList Table.insertMany
  rw [List.foldl_map, List.foldl_map]
  have grown : forall (names : List String) (first : Table String (Binding ν))
      (second : Table String (Binding μ)), first.Resembles (Binding.Resembles nodes) second ->
      (names.foldl (fun table name => table.insert name (.superglobal name owner)) first).Resembles
        (Binding.Resembles nodes)
        (names.foldl (fun table name => table.insert name (.superglobal name owner)) second) := by
    intro names
    induction names with
    | nil => exact fun _ _ start => start
    | cons name rest inductionHypothesis =>
        exact fun _ _ start => inductionHypothesis _ _ (start.insert name (.superglobal name owner))
  exact grown superglobalNames _ _ .empty

/-- Related entries of two chains of scopes. -/
def Linked (nodes : ν -> μ -> Prop) (first : ScopeId × Scope ν) (second : ScopeId × Scope μ) :
    Prop :=
  first.1 = second.1 ∧ first.2.Resembles nodes second.2

section Chains

variable {nodes : ν -> μ -> Prop} {first : List (ScopeId × Scope ν)}
  {second : List (ScopeId × Scope μ)}

/-- A search along chains that resemble each other finds bindings that do so. -/
theorem searchChain_related (chains : List.Forall₂ (Linked nodes) first second) (name : String) :
    Option.Rel (Binding.Resembles nodes) (searchChain name first) (searchChain name second) := by
  induction chains with
  | nil => exact .none
  | cons linked _ inductionHypothesis =>
      have found := linked.2.bindings.find? name
      rw [searchChain, searchChain, linked.2.body.isBoundary_eq]
      generalize Table.find? _ name = left at found
      generalize Table.find? _ name = right at found
      cases found with
      | some related => exact .some related
      | none =>
          show Option.Rel _ (if _ then none else _) (if _ then none else _)
          split
          · exact .none
          · exact inductionHypothesis

/-- Chains that resemble each other continue the same namespace. -/
theorem continuedNamespace_eq_of_linked (chains : List.Forall₂ (Linked nodes) first second) :
    continuedNamespace second = continuedNamespace first := by
  induction chains with
  | nil => rfl
  | @cons head other _ _ linked _ inductionHypothesis =>
      obtain ⟨id, scope⟩ := head
      obtain ⟨otherId, otherScope⟩ := other
      obtain ⟨rfl, resembles⟩ := linked
      have body : scope.body.Resembles nodes otherScope.body := resembles.body
      rw [continuedNamespace, continuedNamespace]
      generalize scope.body = left at body
      generalize otherScope.body = right at body
      cases body <;> first | exact inductionHypothesis | rfl

/-- Chains that resemble each other lie in the same namespace. -/
theorem innermostNamespace_eq_of_linked (chains : List.Forall₂ (Linked nodes) first second)
    (start : String) : innermostNamespace start second = innermostNamespace start first := by
  induction chains with
  | nil => rfl
  | @cons head other _ _ linked rest inductionHypothesis =>
      obtain ⟨id, scope⟩ := head
      obtain ⟨otherId, otherScope⟩ := other
      obtain ⟨rfl, resembles⟩ := linked
      have body : scope.body.Resembles nodes otherScope.body := resembles.body
      rw [innermostNamespace, innermostNamespace]
      generalize scope.body = left at body
      generalize otherScope.body = right at body
      cases body
      case continuation => exact continuedNamespace_eq_of_linked rest
      case namespaceRoot | globalRoot => rfl
      all_goals exact inductionHypothesis

/-- The last entries of related lists are related. -/
theorem getLast?_related {α β : Type} {values : α -> β -> Prop} {first : List α} {second : List β}
    (lists : List.Forall₂ values first second) :
    Option.Rel values first.getLast? second.getLast? := by
  induction lists with
  | nil => exact .none
  | cons head _ inductionHypothesis =>
      rw [List.getLast?_cons, List.getLast?_cons]
      refine .some ?_
      generalize List.getLast? _ = left at inductionHypothesis
      generalize List.getLast? _ = right at inductionHypothesis
      cases inductionHypothesis with
      | some later => exact later
      | none => exact head

end Chains

namespace Registry.Resembles

variable {nodes : ν -> μ -> Prop} {notes : List (ν × ScopeId) -> List (μ × ScopeId) -> Prop}
  {owner : ScopeId} {first : Registry ν} {second : Registry μ}

/-- At every place there are two scopes or none. -/
theorem scope_cases (resembles : first.Resembles nodes notes owner second) (id : ScopeId) :
    (first.scope? id = none ∧ second.scope? id = none) ∨
      ∃ scope other, first.scope? id = some scope ∧ second.scope? id = some other ∧
        scope.Resembles nodes other := by
  have both := resembles.scopes id
  generalize first.scope? id = left at both
  generalize second.scope? id = right at both
  cases both with
  | none => exact Or.inl ⟨rfl, rfl⟩
  | some related => exact Or.inr ⟨_, _, rfl, rfl, related⟩

/-- A scope has the same name in both registries. -/
theorem nameOf_eq (resembles : first.Resembles nodes notes owner second) (id : ScopeId) :
    second.nameOf id = first.nameOf id := by
  unfold nameOf
  rcases resembles.scope_cases id with ⟨none, other⟩ | ⟨scope, other, found, present, related⟩
  · rw [none, other]
  · rw [found, present]
    exact related.name

theorem describe_eq (resembles : first.Resembles nodes notes owner second) (id : ScopeId) :
    second.describe id = first.describe id := by
  unfold describe
  rcases resembles.scope_cases id with ⟨none, other⟩ | ⟨scope, other, found, present, related⟩
  · rw [none, other]
  · rw [found, present]
    show other.describe = scope.describe
    rw [Scope.describe, Scope.describe, related.name, related.body.label_eq]

theorem isGlobal_eq (resembles : first.Resembles nodes notes owner second) (id : ScopeId) :
    second.isGlobal id = first.isGlobal id := by
  unfold isGlobal
  rcases resembles.scope_cases id with ⟨none, other⟩ | ⟨scope, other, found, present, related⟩
  · rw [none, other]
  · rw [found, present]
    exact related.body.isGlobal_eq

/-- A scope is a class body in both registries or in neither. -/
theorem isSome_members_eq (resembles : first.Resembles nodes notes owner second) (id : ScopeId) :
    ((second.scope? id).bind fun scope => scope.body.members?).isSome =
      ((first.scope? id).bind fun scope => scope.body.members?).isSome := by
  rcases resembles.scope_cases id with ⟨none, other⟩ | ⟨scope, other, found, present, related⟩
  · rw [none, other]
    rfl
  · rw [found, present]
    exact related.body.isSome_members?_eq

/-- The chains of a scope resemble each other. -/
theorem chain (resembles : first.Resembles nodes notes owner second) (id : ScopeId) :
    List.Forall₂ (Linked nodes) (first.chain id) (second.chain id) := by
  induction id using Nat.strongRecOn with
  | ind id inductionHypothesis =>
      rw [Registry.chain, Registry.chain]
      rcases resembles.scope_cases id with ⟨none, other⟩ | ⟨scope, other, found, present, related⟩
      · rw [none, other]
        exact .nil
      · rw [found, present]
        refine .cons ⟨rfl, related⟩ ?_
        rw [related.parent]
        cases scope.parent with
        | none => exact .nil
        | some parent =>
            by_cases older : parent < id
            · simpa only [if_pos older] using inductionHypothesis parent older
            · simpa only [if_neg older] using List.Forall₂.nil

/-- A lookup finds bindings that resemble each other, or fails in the same way. -/
theorem resolveVariable (resembles : first.Resembles nodes notes owner second) (id : ScopeId)
    (name : String) :
    SameAnswer (Binding.Resembles nodes) (first.resolveVariable id name)
      (second.resolveVariable id name) := by
  unfold Registry.resolveVariable
  have found := searchChain_related (resembles.chain id) name
  rw [resembles.nameOf_eq]
  generalize searchChain name (first.chain id) = left at found
  generalize searchChain name (second.chain id) = right at found
  cases found with
  | none => exact .error _
  | some related =>
      cases related with
      | referent related => exact .ok (.referent related)
      | parameter name one two index => exact .ok (.parameter name one two index)
      | superglobal name owner => exact .ok (.superglobal name owner)
      | globalReference name one two owner => exact .ok (.globalReference name one two owner)
      | unset => exact .error _

/-- A scope belongs to the same namespace in both registries. -/
theorem namespaceOf_eq (resembles : first.Resembles nodes notes owner second) (id : ScopeId) :
    second.namespaceOf id = first.namespaceOf id := by
  unfold namespaceOf
  rw [resembles.describe_eq]
  exact innermostNamespace_eq_of_linked (resembles.chain id) _

/-- A scope belongs to the same program in both registries. -/
theorem globalOf_eq (resembles : first.Resembles nodes notes owner second) (id : ScopeId) :
    second.globalOf id = first.globalOf id := by
  unfold globalOf
  have last := getLast?_related (resembles.chain id)
  rw [resembles.describe_eq]
  generalize (first.chain id).getLast? = left at last
  generalize (second.chain id).getLast? = right at last
  cases last with
  | none => rfl
  | @some one other linked =>
      obtain ⟨place, scope⟩ := one
      obtain ⟨otherPlace, otherScope⟩ := other
      obtain ⟨rfl, related⟩ := linked
      have same : otherScope.body.isGlobal = scope.body.isGlobal := related.body.isGlobal_eq
      simp only [same]

/-- The symbols of a scope resemble each other. -/
theorem symbolsOf (resembles : first.Resembles nodes notes owner second) (id : ScopeId) :
    (first.symbolsOf id).Resembles nodes (second.symbolsOf id) := by
  unfold Registry.symbolsOf
  rcases resembles.scope_cases id with ⟨none, other⟩ | ⟨scope, other, found, present, related⟩
  · rw [none, other]
    exact .empty
  · rw [found, present]
    exact related.body.symbols

/-- A nested namespace is the same scope in both registries. -/
theorem nestedNamespace_eq (resembles : first.Resembles nodes notes owner second) (id : ScopeId)
    (name : String) : second.nestedNamespace id name = first.nestedNamespace id name := by
  unfold nestedNamespace
  rw [(resembles.symbolsOf id).namespaces, resembles.nameOf_eq]

/-- A function is found in one namespace on both sides or on neither. -/
theorem localSymbol (resembles : first.Resembles nodes notes owner second) (fallback : Bool)
    (id : ScopeId) (name : String) :
    SameAnswer nodes (first.localSymbol .function fallback id name)
      (second.localSymbol .function fallback id name) := by
  have declared : forall place,
      Option.Rel nodes ((first.symbolsOf place).functions.find? (Text.lower name))
        ((second.symbolsOf place).functions.find? (Text.lower name)) :=
    fun place => (resembles.symbolsOf place).functions.find? _
  unfold Registry.localSymbol
  simp only [SymbolKind.table, SymbolKind.keyOf, resembles.globalOf_eq, resembles.nameOf_eq]
  have here := declared id
  generalize (first.symbolsOf id).functions.find? (Text.lower name) = left at here
  generalize (second.symbolsOf id).functions.find? (Text.lower name) = right at here
  cases here with
  | some related => exact .ok related
  | none =>
      cases first.globalOf id with
      | error fault => exact .error fault
      | ok root =>
          simp only [bind, Except.bind]
          split
          · have outer := declared root
            generalize (first.symbolsOf root).functions.find? (Text.lower name) = left at outer
            generalize (second.symbolsOf root).functions.find? (Text.lower name) = right at outer
            cases outer with
            | some related => exact .ok related
            | none => exact .error _
          · exact .error _

/-- A function is found under a qualified name on both sides or on neither. -/
theorem symbolAt (resembles : first.Resembles nodes notes owner second) (fallback : Bool)
    (id : ScopeId) (name : List Char) :
    SameAnswer nodes (first.symbolAt .function fallback id name)
      (second.symbolAt .function fallback id name) := by
  induction length : name.length using Nat.strongRecOn generalizing name fallback id with
  | ind measure inductionHypothesis =>
      rw [Registry.symbolAt, Registry.symbolAt]
      cases view : NameView.of name with
      | plain segment => exact resembles.localSymbol fallback id _
      | absolute rest =>
          have shorter : rest.length < measure := length ▸ NameView.length_absolute_lt view
          simp only [resembles.globalOf_eq]
          cases first.globalOf id with
          | error fault => exact .error fault
          | ok root => exact inductionHypothesis _ shorter false root rest rfl
      | qualified head tail =>
          have shorter : tail.length < measure := length ▸ NameView.length_qualified_lt view
          simp only [resembles.nestedNamespace_eq]
          cases first.nestedNamespace id (String.ofList head) with
          | error fault => exact .error fault
          | ok inner => exact inductionHypothesis _ shorter false inner tail rfl

/-- A name denotes related functions in both registries. -/
theorem resolveFunction (resembles : first.Resembles nodes notes owner second) (id : ScopeId)
    (name : String) :
    SameAnswer nodes (first.resolveFunction id name) (second.resolveFunction id name) := by
  unfold Registry.resolveFunction Registry.resolveSymbol
  rw [resembles.namespaceOf_eq]
  cases first.namespaceOf id with
  | error fault => exact .error fault
  | ok start => exact resembles.symbolAt _ start _

/-- The first place with a binding is the same in both registries. -/
theorem firstBound (resembles : first.Resembles nodes notes owner second) (name : String)
    (places : List ScopeId) :
    SameAnswer (Option.Rel (Binding.Resembles nodes))
      (first.firstBound (fun scope => first.resolveVariable scope name) places)
      (second.firstBound (fun scope => second.resolveVariable scope name) places) := by
  induction places with
  | nil => exact .ok .none
  | cons id rest inductionHypothesis =>
      rw [Registry.firstBound, Registry.firstBound]
      have found := resembles.resolveVariable id name
      generalize first.resolveVariable id name = left at found
      generalize second.resolveVariable id name = right at found
      rcases resembles.scope_cases id with ⟨none, other⟩ | ⟨scope, other, present, listed, -⟩
      · rw [none, other]
        exact .error _
      · rw [present, listed]
        cases found with
        | ok related => exact .ok (.some related)
        | error fault => exact inductionHypothesis

/-- A reference leads to related bindings at the end of the programs. -/
theorem resolveGlobalVariable (resembles : first.Resembles nodes notes owner second) (id : ScopeId)
    (name : String) :
    SameAnswer (Binding.Resembles nodes) (first.resolveGlobalVariable id name)
      (second.resolveGlobalVariable id name) := by
  unfold Registry.resolveGlobalVariable lookupAtEnd
  rw [resembles.isGlobal_eq, resembles.ends]
  split
  · refine (resembles.firstBound name _).bind fun found other related => ?_
    cases related with
    | some binding => exact .ok binding
    | none => exact resembles.resolveVariable id name
  · exact .error _

end Registry.Resembles

end PhpTaint.Scopes
