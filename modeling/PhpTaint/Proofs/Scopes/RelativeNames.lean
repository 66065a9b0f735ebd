import PhpTaint.Proofs.Scopes.NamespaceTable

/-!
# Names relative to the current namespace

A name that begins with the segment `namespace` is meant for the namespace in which
it stands, whatever the global one declares: it should denote what the absolute name
denotes that spells this namespace out. The lookups drop the segment before they
decide anything else. Namespaces and classes are found as they should be; a function
or constant whose name is a single segment after that is taken for an unqualified
one, so the global namespace is asked where its own does not declare it. This is the
only difference, for programs with namespaces of any names.
-/

namespace PhpTaint.Scopes

open Outcome

variable {ν : Type}

namespace Rooted

variable {root : ScopeId} {registry : Registry ν}

/-- A change of the variables of a scope leaves the tree of scopes as it is. -/
theorem rebind (rooted : Rooted root registry) (id : ScopeId)
    (change : Table String (Binding ν) -> Table String (Binding ν)) :
    Rooted root (registry.updateScope id fun scope =>
      { scope with bindings := change scope.bindings }) := by
  refine rooted.update (fun _ => rfl) (fun _ => rfl) fun scope found name inner listed => ?_
  refine rooted.namespaces id name inner ?_
  rw [Registry.symbolsOf_of_scope found]
  exact listed

/-- An operation on any scope, refused or not, leaves one tree of scopes. -/
theorem after (rooted : Rooted root registry) (operation : Operation ν) :
    Rooted root (registry.after operation) := by
  by_cases bound : operation.scope < registry.scopes.size
  · have grown {inner : ScopeId} {after : Registry ν} {holds : Prop}
        (grows : Grows root registry after ∧ holds) : Rooted root after := grows.1.rooted
    cases operation with (simp only [Operation.scope] at bound)
    | child id =>
        obtain ⟨scope, present⟩ := Registry.exists_scope bound
        rw [Registry.after, openChild, run_get_bind]
        simp only [present]
        exact (rooted.openScope _ rfl (Registry.kind?_of_scope present)
          (successor_nests scope.body) (by cases scope.body <;> rfl)).rooted
    | bind id name binding =>
        exact (rooted.bindVariable bound name binding).of_left
          (fun _ _ ended => ended.1.rooted) fun _ _ ended => ended.2
    | reference id name node =>
        exact (rooted.bindByReference bound name node).of_left
          (fun _ _ ended => ended.1.rooted) fun _ _ ended => ended.2
    | closure id name =>
        exact (rooted.openFunction bound name).of_left
          (fun _ _ ended => ended.1.rooted) fun _ _ ended => ended.2
    | parameter id name binding =>
        obtain ⟨⟨title, parent, bindings, body⟩, present⟩ := Registry.exists_scope bound
        rw [Registry.after, Scopes.bindOnEntry, run_get_bind]
        simp only [present]
        cases body with
        | functionEntry =>
            cases hasSigil name with
            | true => exact rooted.rebind id fun bindings => bindings.insert name binding
            | false => exact rooted
        | block | classBody _ | namespaceRoot _ | continuation | globalRoot _ => exact rooted
    | function id name node =>
        exact (rooted.declareFunction bound name node).of_left
          (fun _ _ ended => ended.1.rooted) fun _ _ ended => ended.2
    | classLike id name node =>
        exact (rooted.declareClass bound name node).of_left
          (fun _ _ ended => ended.1.rooted) fun _ _ ended => ended.2
    | constant id name node =>
        exact (rooted.declareConstant bound name node).of_left
          (fun _ _ ended => ended.rooted) fun _ _ ended => ended.2
    | property id name node =>
        cases isClass : ((registry.scope? id).bind fun scope => scope.body.members?).isSome with
        | true =>
            exact (rooted.declareProperty isClass name node).of_left
              (fun _ _ ended => ended.rooted) fun _ _ ended => ended.2
        | false =>
            have none := Option.isSome_eq_false_iff.1 isClass
            have unanswered : registry.membersOf id = .error .missingOperation := by
              rw [Registry.membersOf, Option.isNone_iff_eq_none.1 none]
            rw [Registry.after, Scopes.declareProperty, left_ask_bind ⟨_, unanswered⟩]
            exact rooted
    | space id name =>
        exact (rooted.declareNamespace bound name).of_left
          (fun _ _ ended => ended.1.rooted) fun _ _ ended => ended.2
  · have missing : registry.scope? operation.scope = none :=
      Array.getElem?_eq_none (Nat.le_of_not_lt bound)
    rw [Registry.after_of_missing missing]
    exact rooted

/-- The scopes of a program form one tree, whatever it performs. -/
theorem performed (operations : List (Operation ν)) :
    Rooted 0 (Registry.performed operations) := by
  induction operations using List.reverseRecOn with
  | nil => exact Catalogued.start.rooted
  | append_singleton earlier operation inductionHypothesis =>
      rw [Registry.performed, List.foldl_append]
      exact inductionHypothesis.after operation

/-- What is listed as a nested namespace is a scope. -/
theorem lt_of_space? (rooted : Rooted root registry) {id inner : ScopeId} {key : String}
    (listed : registry.space? id key = some inner) : inner < registry.scopes.size := by
  obtain ⟨kind, found, -⟩ := rooted.namespaces id key inner listed
  exact Registry.lt_of_kind? found

end Rooted

/-- A lookup finds something, or says that the name is unbound. -/
def Answered {α : Type} (answer : Except Fault α) : Prop := ∃ found, Finds answer found

/-- Two lookups find the same, or both say that a name is unbound. -/
def Agree {α : Type} (left right : Except Fault α) : Prop :=
  ∃ found, Finds left found ∧ Finds right found

/-- An answer that is no fault of another kind agrees with itself. -/
theorem Answered.agree {α : Type} {answer : Except Fault α} (answered : Answered answer) :
    Agree answer answer := by
  obtain ⟨found, finds⟩ := answered
  exact ⟨found, finds, finds⟩

/-- A lookup finds one thing only. -/
theorem Finds.unique {α : Type} {answer : Except Fault α} {left right : Option α}
    (first : Finds answer left) (second : Finds answer right) : left = right := by
  cases left with
  | some value =>
      rw [Finds] at first
      subst first
      cases right with
      | some other =>
          rw [Finds] at second
          injection second with same
          rw [same]
      | none =>
          obtain ⟨_, _, unbound⟩ := second
          cases unbound
  | none =>
      obtain ⟨_, _, unbound⟩ := first
      subst unbound
      cases right with
      | some other => cases second
      | none => rfl

namespace Registry

variable {registry : Registry ν} {name other : List Char}

/-- A lookup of a declaration depends on the first step of its name only. -/
theorem symbolAt_congr (same : NameView.of name = NameView.of other) (kind : SymbolKind)
    (fallback : Bool) (id : ScopeId) :
    registry.symbolAt kind fallback id name = registry.symbolAt kind fallback id other := by
  rw [symbolAt, symbolAt.eq_1 registry kind fallback id other]
  split <;> rename_i found <;> rw [same] at found <;> split <;> rename_i again <;>
    rw [found] at again <;> cases again <;> rfl

/-- So does that of a namespace, of a name that is not empty. -/
theorem namespaceAt_congr (same : NameView.of name = NameView.of other)
    (written : name.isEmpty = other.isEmpty) (id : ScopeId) :
    registry.namespaceAt id name = registry.namespaceAt id other := by
  rw [namespaceAt, namespaceAt.eq_1 registry id other, written]
  split
  · rfl
  · split <;> rename_i found <;> rw [same] at found <;> split <;> rename_i again <;>
      rw [found] at again <;> cases again <;> rfl

end Registry

/-- A name with one more segment in front. -/
def prefixed (segment : String) (name : List Char) : List Char :=
  segment.toList ++ separator :: name

/-- A name with the segments of a path in front. -/
def underPath (path : List String) (name : List Char) : List Char := path.foldr prefixed name

/-- The name that is meant for the namespace in which it stands. -/
def relativeName (name : String) : String := String.ofList (relativeMark ++ name.toList)

/-- The name that spells a path out from the global namespace. -/
def absoluteName (path : List String) (name : String) : String :=
  String.ofList (separator :: underPath path name.toList)

/-- Whether a text is one segment of a path and stands for itself. -/
def isPathSegment (segment : String) : Bool :=
  isUnqualified segment.toList && isProperSegment segment

section Prefixed

variable {segment : String} {name : List Char}

/-- A name behind a segment is qualified. -/
theorem isUnqualified_prefixed (segment : String) (name : List Char) :
    isUnqualified (prefixed segment name) = false := by
  simp [isUnqualified, prefixed]

/-- The first segment of a name behind a segment is that segment. -/
theorem headSegment_prefixed (single : isUnqualified segment.toList = true) :
    headSegment (prefixed segment name) = segment.toList :=
  headSegment_append (not_mem_of_isUnqualified single)

/-- What follows the segment is the name. -/
theorem tailSegments_prefixed (single : isUnqualified segment.toList = true) :
    tailSegments (prefixed segment name) = name := by
  have parts := eq_headSegment_append (isUnqualified_prefixed segment name)
  rw [headSegment_prefixed single, prefixed] at parts
  exact (List.cons.inj (List.append_cancel_left parts)).2.symm

/-- A proper name behind a proper segment is proper. -/
theorem isProper_prefixed (segments : isPathSegment segment = true)
    (proper : isProper name = true) : isProper (prefixed segment name) = true := by
  obtain ⟨single, stands⟩ := Bool.and_eq_true_iff.1 segments
  rw [isProper, segmentsOf_qualified (isUnqualified_prefixed segment name),
    headSegment_prefixed single, tailSegments_prefixed single, String.ofList_toList,
    List.all_cons, stands]
  exact proper

/-- A proper name under a path of proper segments is proper. -/
theorem isProper_underPath {path : List String} (segments : path.all isPathSegment = true)
    (proper : isProper name = true) : isProper (underPath path name) = true := by
  induction path with
  | nil => exact proper
  | cons segment rest inductionHypothesis =>
      obtain ⟨first, later⟩ := Bool.and_eq_true_iff.1 segments
      exact isProper_prefixed first (inductionHypothesis later)

/-- The mark of the current namespace is dropped and leaves the name as it is. -/
theorem NameView.of_relative (proper : isProper name = true) :
    NameView.of (relativeMark ++ name) = NameView.of name := by
  have marked : dropRelative (relativeMark ++ name) = name := by
    have lowered : Text.lowerChars (relativeMark ++ name) =
        Text.lowerChars "namespace".toList ++ separator :: Text.lowerChars name :=
      Text.lowerChars_append_backslash "namespace".toList name
    have kept : Text.lowerChars "namespace".toList = "namespace".toList := by decide
    rw [dropRelative, if_pos, List.drop_left]
    rw [lowered, kept]
    exact List.isPrefixOf_iff_prefix.2 ⟨Text.lowerChars name, rfl⟩
  rw [NameView.of, NameView.of, marked, dropRelative_of_isProper proper]

end Prefixed

/-- Segments lead from one namespace to another: each names a nested one. -/
inductive Registry.Leads (registry : Registry ν) : ScopeId -> List String -> ScopeId -> Prop
  | here (id : ScopeId) : Leads registry id [] id
  | into {outer inner last : ScopeId} {segment : String} {rest : List String}
      (listed : registry.space? outer (Text.lower segment) = some inner)
      (later : Leads registry inner rest last) : Leads registry outer (segment :: rest) last

/-- A lookup enters the namespaces that all segments of a name but the last lead to. -/
def Registry.Descends {α : Type} (registry : Registry ν)
    (look : ScopeId -> List Char -> Except Fault α) : Prop :=
  forall id name, isProper name = true -> isUnqualified name = false ->
    look id name = registry.nestedNamespace id (String.ofList (headSegment name)) >>= fun inner =>
      look inner (tailSegments name)

/-- Namespaces are looked up along the path of a name. -/
theorem Registry.descends_namespaceAt (registry : Registry ν) :
    registry.Descends registry.namespaceAt :=
  fun id _ => registry.namespaceAt_qualified id

/-- Symbols are looked up along the path of a name. -/
theorem Registry.descends_symbolAt (registry : Registry ν) (kind : SymbolKind) :
    registry.Descends (registry.symbolAt kind false) :=
  fun id _ => registry.symbolAt_qualified id kind false

namespace Registry.Descends

variable {α : Type} {registry : Registry ν} {look : ScopeId -> List Char -> Except Fault α}
  (descends : registry.Descends look) {name : List Char}

include descends

/-- A name under a path is looked for where the path leads. -/
theorem look_underPath {outer space : ScopeId} {path : List String}
    (leads : registry.Leads outer path space) (segments : path.all isPathSegment = true)
    (proper : isProper name = true) : look outer (underPath path name) = look space name := by
  induction leads with
  | here id => rfl
  | into listed later inductionHypothesis =>
      rename_i outer inner last segment rest
      obtain ⟨first, more⟩ := Bool.and_eq_true_iff.1 segments
      have single := (Bool.and_eq_true_iff.1 first).1
      rw [← inductionHypothesis more,
        show underPath (segment :: rest) name = prefixed segment (underPath rest name) from rfl,
        descends outer _ (isProper_prefixed first (isProper_underPath more proper))
          (isUnqualified_prefixed _ _),
        headSegment_prefixed single, tailSegments_prefixed single, String.ofList_toList,
        (registry.nestedNamespace_finds outer segment).eq_ok listed]
      rfl

/-- If single segments are found or unbound, then so are all proper names. -/
theorem answered {root : ScopeId} (rooted : Rooted root registry)
    (singles : forall id name, id < registry.scopes.size -> isProper name = true ->
      isUnqualified name = true -> Answered (look id name))
    {id : ScopeId} (bound : id < registry.scopes.size) (proper : isProper name = true) :
    Answered (look id name) := by
  induction size : name.length using Nat.strongRecOn generalizing id name with
  | ind measure inductionHypothesis =>
      cases single : isUnqualified name with
      | true => exact singles id name bound proper single
      | false =>
          rw [descends id name proper single]
          have first := registry.nestedNamespace_finds id (String.ofList (headSegment name))
          cases listed : registry.space? id (Text.lower (String.ofList (headSegment name))) with
          | some inner =>
              rw [first.eq_ok listed]
              exact inductionHypothesis _ (size ▸ length_tailSegments_lt single)
                (rooted.lt_of_space? listed) (isProper_tail proper single) rfl
          | none =>
              rw [listed] at first
              obtain ⟨wanted, scope, unbound⟩ := first
              rw [unbound]
              exact ⟨none, wanted, scope, rfl⟩

end Registry.Descends

namespace Rooted

variable {root : ScopeId} {registry : Registry ν} {id : ScopeId} {name : List Char}

/-- A proper name leads to a namespace, or is unbound. -/
theorem namespaceAt_answered (rooted : Rooted root registry) (bound : id < registry.scopes.size)
    (proper : isProper name = true) : Answered (registry.namespaceAt id name) := by
  refine registry.descends_namespaceAt.answered rooted (fun id name _ proper single => ?_) bound
    proper
  rw [registry.namespaceAt_single id proper single]
  exact ⟨_, registry.nestedNamespace_finds id _⟩

/-- A proper name denotes a declaration, or is unbound. -/
theorem symbolAt_answered (rooted : Rooted root registry) (bound : id < registry.scopes.size)
    (proper : isProper name = true) (kind : SymbolKind) :
    Answered (registry.symbolAt kind false id name) := by
  refine (registry.descends_symbolAt kind).answered rooted (fun id name bound proper single => ?_)
    bound proper
  rw [registry.symbolAt_single id kind false proper single]
  exact ⟨_, rooted.localSymbol_finds bound kind false _⟩

end Rooted

/-- A relative name is looked for past its own namespace: it is a single segment of
a kind that falls back, the namespace does not declare it, and the global one does. -/
def Registry.PassesOver (registry : Registry ν) (kind : SymbolKind) (space : ScopeId)
    (name : String) : Prop :=
  kind.fallsBack = true ∧ isUnqualified name.toList = true ∧
    registry.symbol? kind space (kind.keyOf name) = none ∧
      (registry.symbol? kind 0 (kind.keyOf name)).isSome = true

namespace Registry.Leads

variable {registry : Registry ν} (rooted : Rooted 0 registry) {id space : ScopeId}
  {path : List String} {name : String} (leads : registry.Leads 0 path space)
  (segments : path.all isPathSegment = true) (proper : isProper name.toList = true)

/-- A path leads from a scope to a scope. -/
theorem lt_size {root outer : ScopeId} (rooted : Rooted root registry)
    (bound : outer < registry.scopes.size) (leads : registry.Leads outer path space) :
    space < registry.scopes.size := by
  induction leads with
  | here id => exact bound
  | into listed later inductionHypothesis =>
      exact inductionHypothesis (rooted.lt_of_space? listed)

include rooted leads segments proper

/-- A relative and an absolute name lead to one namespace, or to none. -/
theorem namespaces_agree (inside : registry.namespaceOf id = .ok space) :
    Agree (registry.resolveNamespace id (some (relativeName name)))
      (registry.resolveNamespace id (some (absoluteName path name))) := by
  have bound := leads.lt_size rooted rooted.root_lt
  have named := ne_nil_of_isProper proper
  have written : (relativeMark ++ name.toList).isEmpty = name.toList.isEmpty := by
    rw [List.isEmpty_eq_false_iff.2 named,
      List.isEmpty_eq_false_iff.2 (List.append_ne_nil_of_right_ne_nil _ named)]
  have relative : registry.resolveNamespace id (some (relativeName name)) =
      registry.namespaceAt space name.toList := by
    rw [resolveNamespace, inside, relativeName, Option.getD_some]
    show registry.namespaceAt space (String.ofList (relativeMark ++ name.toList)).toList = _
    rw [String.toList_ofList, namespaceAt_congr (NameView.of_relative proper) written]
  have absolute : registry.resolveNamespace id (some (absoluteName path name)) =
      registry.namespaceAt space name.toList := by
    rw [resolveNamespace, inside, absoluteName, Option.getD_some]
    show registry.namespaceAt space
      (String.ofList (separator :: underPath path name.toList)).toList = _
    rw [String.toList_ofList,
      registry.namespaceAt_absolute space (isProper_underPath segments proper),
      rooted.globalOf_eq bound]
    exact registry.descends_namespaceAt.look_underPath leads segments proper
  rw [relative, absolute]
  exact (rooted.namespaceAt_answered bound proper).agree

/-- What is found relative to a namespace, and under its path. -/
theorem symbols_find (inside : registry.namespaceOf id = .ok space) (kind : SymbolKind) :
    ∃ found, Finds (registry.resolveSymbol kind id (absoluteName path name)) found ∧
      Finds (registry.resolveSymbol kind id (relativeName name))
        (found.or (if isUnqualified name.toList && kind.fallsBack then
          registry.symbol? kind 0 (kind.keyOf name) else none)) ∧
      (isUnqualified name.toList = true -> found = registry.symbol? kind space (kind.keyOf name)) := by
  have bound := leads.lt_size rooted rooted.root_lt
  have relative : registry.resolveSymbol kind id (relativeName name) =
      registry.symbolAt kind kind.fallsBack space name.toList := by
    rw [resolveSymbol, inside, relativeName]
    show registry.symbolAt kind kind.fallsBack space
      (String.ofList (relativeMark ++ name.toList)).toList = _
    rw [String.toList_ofList, symbolAt_congr (NameView.of_relative proper)]
  have absolute : registry.resolveSymbol kind id (absoluteName path name) =
      registry.symbolAt kind false space name.toList := by
    rw [resolveSymbol, inside, absoluteName]
    show registry.symbolAt kind kind.fallsBack space
      (String.ofList (separator :: underPath path name.toList)).toList = _
    rw [String.toList_ofList,
      registry.symbolAt_absolute space kind _ (isProper_underPath segments proper),
      rooted.globalOf_eq bound]
    exact (registry.descends_symbolAt kind).look_underPath leads segments proper
  rw [relative, absolute]
  cases single : isUnqualified name.toList with
  | true =>
      have here := rooted.localSymbol_finds bound kind false name
      rw [if_neg Bool.false_ne_true, Option.or_none] at here
      rw [registry.symbolAt_single space kind _ proper single,
        registry.symbolAt_single space kind _ proper single, String.ofList_toList, Bool.true_and]
      exact ⟨_, here, rooted.localSymbol_finds bound kind kind.fallsBack name, fun _ => rfl⟩
  | false =>
      obtain ⟨found, finds⟩ := rooted.symbolAt_answered bound proper kind
      refine ⟨found, finds, ?_, nofun⟩
      rw [registry.symbolAt_qualified space kind _ proper single] at finds ⊢
      rwa [Bool.false_and, if_neg Bool.false_ne_true, Option.or_none]

/-- A relative name denotes what the absolute name denotes, unless it passes over its
own namespace. -/
theorem symbols_agree_iff (inside : registry.namespaceOf id = .ok space) (kind : SymbolKind) :
    Agree (registry.resolveSymbol kind id (relativeName name))
        (registry.resolveSymbol kind id (absoluteName path name)) ↔
      ¬ registry.PassesOver kind space name := by
  obtain ⟨found, absolute, relative, declared⟩ :=
    leads.symbols_find rooted segments proper inside kind
  constructor
  · rintro ⟨other, left, right⟩ ⟨falls, single, undeclared, globally⟩
    obtain rfl := right.unique absolute
    have same := left.unique relative
    rw [declared single, undeclared, single, falls] at same
    have absent : registry.symbol? kind 0 (kind.keyOf name) = none := same.symm
    rw [absent] at globally
    cases globally
  · intro stays
    refine ⟨found, ?_, absolute⟩
    have nothing : found.or (if isUnqualified name.toList && kind.fallsBack then
        registry.symbol? kind 0 (kind.keyOf name) else none) = found := by
      cases found with
      | some node => rfl
      | none =>
          rw [Option.none_or]
          split
          · rename_i asked
            obtain ⟨single, falls⟩ := Bool.and_eq_true_iff.1 asked
            refine Option.not_isSome_iff_eq_none.1 fun globally => ?_
            exact stays ⟨falls, single, (declared single).symm, globally⟩
          · rfl
    rwa [nothing] at relative

/-- A name that passes over its own namespace reaches the global declaration, which
the absolute name does not. -/
theorem passesOver_finds (inside : registry.namespaceOf id = .ok space) {kind : SymbolKind}
    (passes : registry.PassesOver kind space name) :
    ∃ declared, registry.symbol? kind 0 (kind.keyOf name) = some declared ∧
      registry.resolveSymbol kind id (relativeName name) = .ok declared ∧
        Finds (registry.resolveSymbol kind id (absoluteName path name)) none := by
  obtain ⟨falls, single, undeclared, globally⟩ := passes
  obtain ⟨node, listed⟩ := Option.isSome_iff_exists.1 globally
  obtain ⟨found, absolute, relative, declared⟩ :=
    leads.symbols_find rooted segments proper inside kind
  obtain rfl : found = none := (declared single).trans undeclared
  rw [single, falls, listed] at relative
  exact ⟨node, listed, relative, absolute⟩

end Registry.Leads

/-- A scope without a constant of its own under a name asks its namespace. -/
theorem Registry.resolveConstant_of_own {registry : Registry ν} {id : ScopeId} {name : String}
    (own : registry.ownConstant? id name = none) :
    registry.resolveConstant id name = registry.resolveSymbol .constant id name := by
  have members : ((registry.scope? id).bind fun scope => scope.body.members?) =
    registry.members? id := rfl
  rw [resolveConstant, members]
  rw [ownConstant?] at own
  cases found : registry.members? id with
  | none => rfl
  | some members =>
      rw [found, Option.bind_some] at own
      simp only [own]

/-- What the relative and the absolute name of something in one namespace have in
common, asked at a scope of it. Namespaces and classes agree. Functions agree, and so
do constants that no class has as its own, unless the relative name passes over the
namespace: then it denotes what is declared globally, and the absolute name nothing. -/
structure Registry.RelativeNames (registry : Registry ν) (id space : ScopeId)
    (path : List String) (name : String) : Prop where
  namespaces : Agree (registry.resolveNamespace id (some (relativeName name)))
    (registry.resolveNamespace id (some (absoluteName path name)))
  classes : Agree (registry.resolveClass id (relativeName name))
    (registry.resolveClass id (absoluteName path name))
  functions : Agree (registry.resolveFunction id (relativeName name))
      (registry.resolveFunction id (absoluteName path name)) ↔
    ¬ registry.PassesOver .function space name
  constants : registry.ownConstant? id (relativeName name) = none ->
    registry.ownConstant? id (absoluteName path name) = none ->
      (Agree (registry.resolveConstant id (relativeName name))
          (registry.resolveConstant id (absoluteName path name)) ↔
        ¬ registry.PassesOver .constant space name)
  passed : forall kind, registry.PassesOver kind space name ->
    ∃ declared, registry.symbol? kind 0 (kind.keyOf name) = some declared ∧
      registry.resolveSymbol kind id (relativeName name) = .ok declared ∧
        Finds (registry.resolveSymbol kind id (absoluteName path name)) none

/-- Whatever a program has performed, a relative name agrees with the absolute name
of the namespace in which it is read, unless it passes over this namespace. -/
theorem relative_agrees_with_absolute_iff (operations : List (Operation ν)) {id space : ScopeId}
    {path : List String} {name : String}
    (inside : (Registry.performed operations).namespaceOf id = .ok space)
    (leads : (Registry.performed operations).Leads 0 path space)
    (segments : path.all isPathSegment = true) (proper : isProper name.toList = true) :
    (Registry.performed operations).RelativeNames id space path name := by
  have rooted := Rooted.performed operations
  have symbols := leads.symbols_agree_iff rooted segments proper inside
  refine ⟨leads.namespaces_agree rooted segments proper inside, ?_, symbols .function, ?_, ?_⟩
  · refine (symbols .classLike).2 ?_
    rintro ⟨falls, -⟩
    cases falls
  · intro relative absolute
    rw [Registry.resolveConstant_of_own relative, Registry.resolveConstant_of_own absolute]
    exact symbols .constant
  · intro kind passes
    exact leads.passesOver_finds rooted segments proper inside passes

/-- A scope in a namespace that declares a function which the global namespace
declares as well; only the global one declares another function and a constant. -/
def relativeDeclarations : List (Operation String) :=
  [.space 0 "App\\Util", .function 2 "render" "inner", .child 3, .function 0 "Render" "outer",
    .function 0 "strlen" "global", .constant 0 "LIMIT" "shared"]

/-- The function of the namespace is found under both names, and the global function
under the relative one alone. -/
theorem relative_agrees_with_absolute_iff_nested :
    Agree ((Registry.performed relativeDeclarations).resolveFunction 4 "namespace\\RENDER")
        ((Registry.performed relativeDeclarations).resolveFunction 4 "\\App\\UTIL\\RENDER") ∧
      (Registry.performed relativeDeclarations).resolveFunction 4 "namespace\\RENDER" =
        .ok "inner" ∧
      ¬ Agree
        ((Registry.performed relativeDeclarations).resolveFunction 4 "namespace\\strlen")
        ((Registry.performed relativeDeclarations).resolveFunction 4 "\\App\\UTIL\\strlen") := by
  have inside : (Registry.performed relativeDeclarations).namespaceOf 4 = .ok 2 := by
    decide +kernel
  have outer : (Registry.performed relativeDeclarations).space? 0 (Text.lower "App") = some 1 := by
    decide +kernel
  have leads : (Registry.performed relativeDeclarations).Leads 0 ["App", "UTIL"] 2 :=
    .into outer (.into (by decide +kernel) (.here 2))
  have segments : ["App", "UTIL"].all isPathSegment = true := by decide +kernel
  have agreement (name : String) (proper : isProper name.toList = true) :=
    relative_agrees_with_absolute_iff relativeDeclarations inside leads segments proper
  have rendered := agreement "RENDER" (by decide +kernel)
  have measured := agreement "strlen" (by decide +kernel)
  refine ⟨rendered.functions.2 ?_, by decide +kernel, fun agree => measured.functions.1 agree ?_⟩
  · rintro ⟨-, -, undeclared, -⟩
    revert undeclared
    decide +kernel
  · exact ⟨rfl, by decide +kernel, by decide +kernel, by decide +kernel⟩

/-- From inside a namespace, the relative name of a function that only the global
namespace declares finds it, where the absolute name is unbound. -/
theorem relative_name_reaches_global :
    ¬ forall (operations : List (Operation String)) (id space : ScopeId) (path : List String)
        (name : String),
      (Registry.performed operations).namespaceOf id = .ok space ->
      (Registry.performed operations).Leads 0 path space -> path.all isPathSegment = true ->
      isProper name.toList = true ->
        Agree ((Registry.performed operations).resolveFunction id (relativeName name))
          ((Registry.performed operations).resolveFunction id (absoluteName path name)) := by
  intro claimed
  let operations : List (Operation String) := [.function 0 "strlen" "global", .space 0 "App"]
  obtain ⟨found, relative, absolute⟩ := claimed operations 2 2 ["App"] "strlen"
    (by decide +kernel) (.into (by decide +kernel) (.here 2)) (by decide +kernel)
    (by decide +kernel)
  have global : (Registry.performed operations).resolveFunction 2 (relativeName "strlen") =
      .ok "global" := by decide +kernel
  have unbound : (Registry.performed operations).resolveFunction 2 (absoluteName ["App"] "strlen") =
      .error (.unbound "strlen" "App") := by decide +kernel
  have same := relative.unique (show Finds _ (some "global") from global)
  rw [same, Finds, unbound] at absolute
  cases absolute

end PhpTaint.Scopes
