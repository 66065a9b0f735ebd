import PhpTaint.Proofs.Scopes.Cataloguing
import PhpTaint.Proofs.Scopes.Denotation

/-!
# Namespaces as one table

A program opens scopes and declares things in an order of its own, on any scope it
has, and some of its operations are refused. Whatever the order, its namespaces are
those of a catalogue that performs the same operations: one for every path that was
entered, known from then on by that path in any letter case, and each lookup finds
the one entry that a name denotes there. A class is the exception: it is asked
first for a constant of its own with exactly the name that is looked for, and no
part of such a name is read as a path.
-/

namespace PhpTaint.Scopes

open Outcome

variable {ν : Type}

/-- An operation on a scope of a program. -/
inductive Operation (ν : Type) where
  /-- Open a child scope. -/
  | child (id : ScopeId)
  /-- Open a child scope in which a variable has a new binding, or none. -/
  | bind (id : ScopeId) (name : String) (binding : Binding ν)
  /-- Open a child scope in which a variable stands for the global one. -/
  | reference (id : ScopeId) (name : String) (node : ν)
  /-- Open the entry of a function that has no declaration. -/
  | closure (id : ScopeId) (name : String)
  /-- Bind a variable on entry to a function. -/
  | parameter (id : ScopeId) (name : String) (binding : Binding ν)
  /-- Declare a function, or a method. -/
  | function (id : ScopeId) (name : String) (node : ν)
  /-- Declare a class. -/
  | classLike (id : ScopeId) (name : String) (node : ν)
  /-- Declare a constant. -/
  | constant (id : ScopeId) (name : String) (node : ν)
  /-- Declare a property. -/
  | property (id : ScopeId) (name : String) (node : ν)
  /-- Get or open a namespace. -/
  | space (id : ScopeId) (name : String)

namespace Operation

/-- The scope that an operation works on. -/
def scope : Operation ν -> ScopeId
  | child id | bind id _ _ | reference id _ _ | closure id _ | parameter id _ _
  | function id _ _ | classLike id _ _ | constant id _ _ | property id _ _ | space id _ => id

/-- Whether an operation gives a namespace a proper name, if it names one. -/
def isWellNamed : Operation ν -> Bool
  | space _ name => isProper name.toList
  | _ => true

/-- What an operation on a scope with a known place does to a catalogue. -/
def record (catalogue : Catalogue ν) (place : Place) : Operation ν -> Catalogue ν
  | child _ | closure _ _ => catalogue.addInside place false
  | bind _ name _ | reference _ name _ =>
      if hasSigil name then catalogue.addInside place false else catalogue
  | parameter _ _ _ | property _ _ _ => catalogue
  | function _ name node => catalogue.declareFunction place name node
  | classLike _ name node => catalogue.declareClass place name node
  | constant id name node => catalogue.declareConstant id place name node
  | space _ name => catalogue.enter place.path (segmentsOf name.toList)

end Operation

/-- The registry that an operation leaves, whether it was refused or not. -/
def Registry.after (registry : Registry ν) : Operation ν -> Registry ν
  | .child id => left (openChild id ∅ registry)
  | .bind id name binding => left (bindVariable id name binding registry)
  | .reference id name node => left (bindByReference id name node registry)
  | .closure id name => left (openFunction name (some id) registry)
  | .parameter id name binding => left (bindOnEntry id name binding registry)
  | .function id name node => left (declareFunction id name node registry)
  | .classLike id name node => left (declareClass id name node registry)
  | .constant id name node => left (declareConstant id name node registry)
  | .property id name node => left (declareProperty id name node registry)
  | .space id name => left (declareNamespace id name registry)

/-- The catalogue that an operation leaves. -/
def Catalogue.after (catalogue : Catalogue ν) (operation : Operation ν) : Catalogue ν :=
  match catalogue.place? operation.scope with
  | some place => operation.record catalogue place
  | none => catalogue

/-- The registry of a program that has performed operations. -/
def Registry.performed (operations : List (Operation ν)) : Registry ν :=
  operations.foldl Registry.after
    (Registry.push ∅ ⟨"Global", none, superglobals 0, .globalRoot ∅⟩)

/-- The catalogue of a program that has performed operations. -/
def Catalogue.performed (operations : List (Operation ν)) : Catalogue ν :=
  operations.foldl Catalogue.after Catalogue.start

/-- A new program has the registry that opening its global scope leaves. -/
theorem Registry.performed_nil :
    openGlobal (∅ : Registry ν) = .ok 0 (Registry.performed []) := rfl

namespace Catalogue

/-- No operation takes a scope to another place. -/
theorem keepsPlaces_after (catalogue : Catalogue ν) (operation : Operation ν) :
    KeepsPlaces catalogue (catalogue.after operation) := by
  unfold after
  cases catalogue.place? operation.scope with
  | none => exact KeepsPlaces.refl catalogue
  | some place =>
      cases operation with
      | child _ | closure _ _ | classLike _ _ _ =>
          exact keepsPlaces_add _ _
      | bind _ name _ | reference _ name _ =>
          simp only [Operation.record]
          split
          · exact keepsPlaces_add _ _
          · exact KeepsPlaces.refl catalogue
      | parameter _ _ _ | property _ _ _ => exact KeepsPlaces.refl catalogue
      | function _ name node =>
          exact keepsPlaces_declareFunction _ _ _ _
      | constant _ _ _ =>
          simp only [Operation.record, declareConstant]
          split <;> exact KeepsPlaces.refl catalogue
      | space _ name => exact keepsPlaces_enter _ _ _

/-- Declaring a namespace enters the path of its segments. -/
theorem after_space {catalogue : Catalogue ν} {id : ScopeId} {place : Place}
    (found : catalogue.place? id = some place) (name : String) :
    catalogue.after (.space id name) = catalogue.enter place.path (segmentsOf name.toList) := by
  unfold after
  rw [show catalogue.place? (Operation.space id name).scope = some place from found]
  rfl

/-- Operations move no scope. -/
theorem keepsPlaces_foldl_after (catalogue : Catalogue ν) (operations : List (Operation ν)) :
    KeepsPlaces catalogue (operations.foldl after catalogue) := by
  induction operations generalizing catalogue with
  | nil => exact KeepsPlaces.refl catalogue
  | cons operation rest inductionHypothesis =>
      exact (keepsPlaces_after catalogue operation).trans (inductionHypothesis _)

end Catalogue

/-- An operation whose question is refused leaves the registry as it is. -/
theorem left_ask_bind {α β : Type} {registry : Registry ν} {query : Registry ν -> Except Fault α}
    {next : α -> Registering ν β} (refused : ∃ fault, query registry = .error fault) :
    left ((ask query >>= next) registry) = registry := by
  obtain ⟨fault, refused⟩ := refused
  show left (EStateM.bind (ask query) next registry) = registry
  unfold EStateM.bind ask
  rw [refused]
  rfl

/-- An operation on what is no scope is refused. -/
theorem Registry.after_of_missing {registry : Registry ν} {operation : Operation ν}
    (missing : registry.scope? operation.scope = none) : registry.after operation = registry := by
  have chain : registry.chain operation.scope = [] := by rw [Registry.chain, missing]
  have global : ∃ fault, registry.globalOf operation.scope = .error fault := by
    rw [Registry.globalOf, chain]
    exact ⟨_, rfl⟩
  have space : ∃ fault, registry.namespaceOf operation.scope = .error fault := by
    rw [Registry.namespaceOf, chain]
    exact ⟨_, rfl⟩
  cases operation with
  | child id =>
      rw [Registry.after, openChild, run_get_bind]
      simp only [show registry.scope? id = none from missing]
      rfl
  | bind id name binding =>
      rw [Registry.after, bindVariable]
      split
      · rw [openChild, run_get_bind]
        simp only [show registry.scope? id = none from missing]
        rfl
      · rfl
  | reference id name node => exact left_ask_bind global
  | closure id name =>
      obtain ⟨fault, unrooted⟩ := global
      refine left_ask_bind
        ⟨.outsideProgram (⟨name, some id, ∅, .functionEntry⟩ : Scope ν).describe, ?_⟩
      simp only [show registry.globalOf id = .error fault from unrooted]
  | parameter id name binding =>
      rw [Registry.after, bindOnEntry, run_get_bind]
      simp only [show registry.scope? id = none from missing]
      rfl
  | function id name node =>
      rw [Registry.after, declareFunction, run_get_bind]
      simp only [show registry.scope? id = none from missing]
      exact left_ask_bind space
  | classLike id name node => exact left_ask_bind space
  | constant id name node =>
      rw [Registry.after, declareConstant, run_get_bind]
      simp only [show registry.scope? id = none from missing]
      exact left_ask_bind space
  | property id name node =>
      refine left_ask_bind ⟨.missingOperation, ?_⟩
      rw [Registry.membersOf, show registry.scope? id = none from missing]
      rfl
  | space id name => exact left_ask_bind space

namespace Catalogued

variable {root : ScopeId} {registry : Registry ν} {catalogue : Catalogue ν}

/-- A new program has the global scope and no other. -/
theorem scope?_performed_nil (id : ScopeId) : (Registry.performed [] : Registry ν).scope? id =
    if id = 0 then some ⟨"Global", none, superglobals 0, .globalRoot ∅⟩ else none := by
  rw [Registry.performed, List.foldl_nil, Registry.scope?_push]
  exact if_congr Iff.rfl rfl (Array.getElem?_eq_none (Nat.zero_le _))

/-- A new program declares nothing. -/
theorem symbolsOf_performed_nil (id : ScopeId) :
    (Registry.performed [] : Registry ν).symbolsOf id = ∅ := by
  rw [Registry.symbolsOf, scope?_performed_nil]
  split
  · rename_i found
    split at found
    · cases found
      rfl
    · cases found
  · rfl

/-- At the start only the global scope has a place. -/
theorem place?_start_iff {id : ScopeId} {place : Place} :
    (Catalogue.start : Catalogue ν).place? id = some place ↔ id = 0 ∧ place = .space [] := by
  cases id <;> simp [Catalogue.place?, Catalogue.start, eq_comm]

/-- A new program has the catalogue that declares nothing. -/
theorem start : Catalogued 0 (Registry.performed [] : Registry ν) Catalogue.start where
  rooted := by
    refine ⟨⟨_, scope?_performed_nil 0, rfl, rfl⟩, ?_, ?_⟩
    · intro id other found notRoot
      rw [scope?_performed_nil, if_neg notRoot] at found
      cases found
    · intro id name inner listed
      rw [symbolsOf_performed_nil] at listed
      cases listed
  size := rfl
  global := rfl
  places id kind found := by
    obtain ⟨other, present, rfl⟩ := Registry.exists_of_kind? found
    rw [scope?_performed_nil] at present
    split at present
    · rename_i same
      cases present
      exact ⟨_, place?_start_iff.2 ⟨same, rfl⟩, rfl, rfl⟩
    · cases present
  inherited id found parent placed plain _ := by
    obtain ⟨-, rfl⟩ := place?_start_iff.1 placed
    cases plain
  unique left right path leftFound rightFound := by
    rw [(place?_start_iff.1 leftFound).1, (place?_start_iff.1 rightFound).1]
  founded id path key found := by
    have paths := congrArg Place.path (place?_start_iff.1 found).2
    simp [Place.space] at paths
  nested id path key inner found := by
    rw [Registry.space?, symbolsOf_performed_nil]
    constructor
    · intro listed
      cases listed
    · intro inside
      have paths := congrArg Place.path (place?_start_iff.1 inside).2
      simp [Place.space] at paths
  entries kind path key node := by
    constructor
    · intro listed
      cases listed
    · rintro ⟨id, -, listed⟩
      rw [Registry.symbol?, symbolsOf_performed_nil] at listed
      cases kind <;> cases listed
  own id name := by
    rw [Registry.ownConstant?, Registry.members?, scope?_performed_nil]
    split <;> rfl

/-- A fork is catalogued where it was not refused for its name. -/
theorem of_fork (catalogued : Catalogued root registry catalogue)
    {operation : Registering ν ScopeId} {name : String} {place : Place}
    (ends : Ends (operation registry)
      (fun child after => hasSigil name = true ∧ child = catalogue.places.length ∧
        Catalogued root after (catalogue.addInside place false))
      (fun _ after => hasSigil name = false ∧ after = registry)) :
    Catalogued root (left (operation registry))
      (if hasSigil name then catalogue.addInside place false else catalogue) := by
  cases outcome : operation registry with
  | ok child after =>
      rw [outcome] at ends
      obtain ⟨sigil, -, later⟩ := ends
      rwa [if_pos sigil]
  | error fault after =>
      rw [outcome] at ends
      obtain ⟨refused, rfl⟩ := ends
      rwa [refused, if_neg Bool.false_ne_true]

/-- An operation on a scope keeps the catalogue of a registry in step. -/
theorem after_placed (catalogued : Catalogued root registry catalogue) {operation : Operation ν}
    (wellNamed : operation.isWellNamed = true) {place : Place}
    (found : catalogue.place? operation.scope = some place) :
    Catalogued root (registry.after operation) (catalogue.after operation) := by
  unfold Catalogue.after
  rw [found]
  cases operation with (simp only [Operation.scope] at found)
  | child id =>
      obtain ⟨after, opened, later⟩ := catalogued.openChild found ∅
      rw [Registry.after, opened]
      exact later
  | bind id name binding => exact catalogued.of_fork (catalogued.bindVariable found name binding)
  | reference id name node => exact catalogued.of_fork (catalogued.bindByReference found name node)
  | closure id name =>
      obtain ⟨after, opened, later⟩ := catalogued.openFunction found name
      rw [Registry.after, opened]
      exact later
  | parameter id name binding =>
      exact (catalogued.bindOnEntry id name binding).of_left (fun _ _ later => later)
        fun _ _ same => same ▸ catalogued
  | function id name node =>
      obtain ⟨_, after, declared, -, later⟩ := catalogued.declareFunction found name node
      rw [Registry.after, declared]
      exact later
  | classLike id name node =>
      obtain ⟨_, after, declared, -, later⟩ := catalogued.declareClass found name node
      rw [Registry.after, declared]
      exact later
  | constant id name node =>
      obtain ⟨after, declared, later⟩ := catalogued.declareConstant found name node
      rw [Registry.after, declared]
      exact later
  | property id name node =>
      exact (catalogued.declareProperty id name node).of_left (fun _ _ later => later)
        fun _ _ same => same ▸ catalogued
  | space id name =>
      obtain ⟨_, after, declared, later, -⟩ := catalogued.declareNamespace found wellNamed
      rw [Registry.after, declared]
      exact later

/-- Every operation keeps the catalogue of a registry in step. -/
theorem after (catalogued : Catalogued root registry catalogue) {operation : Operation ν}
    (wellNamed : operation.isWellNamed = true) :
    Catalogued root (registry.after operation) (catalogue.after operation) := by
  cases found : catalogue.place? operation.scope with
  | none =>
      have missing : registry.scope? operation.scope = none := by
        apply Option.eq_none_iff_forall_ne_some.2
        intro scope present
        obtain ⟨place, placed⟩ := catalogued.exists_place (Registry.scope?_lt present)
        rw [found] at placed
        cases placed
      rw [Registry.after_of_missing missing, Catalogue.after, found]
      exact catalogued
  | some place => exact catalogued.after_placed wellNamed found

/-- The catalogue stays one of the registry under operations on both. -/
theorem foldl_after (catalogued : Catalogued root registry catalogue)
    {operations : List (Operation ν)}
    (wellNamed : forall operation, operation ∈ operations -> operation.isWellNamed = true) :
    Catalogued root (operations.foldl Registry.after registry)
      (operations.foldl Catalogue.after catalogue) := by
  induction operations generalizing registry catalogue with
  | nil => exact catalogued
  | cons operation rest inductionHypothesis =>
      refine inductionHypothesis (catalogued.after (wellNamed _ (List.mem_cons_self ..))) ?_
      exact fun other member => wellNamed other (List.mem_cons_of_mem _ member)

/-- A program is catalogued by the same operations on the catalogue. -/
theorem performed {operations : List (Operation ν)}
    (wellNamed : forall operation, operation ∈ operations -> operation.isWellNamed = true) :
    Catalogued 0 (Registry.performed operations) (Catalogue.performed operations) :=
  start.foldl_after wellNamed

end Catalogued

/-- The path that a name leads to from a place. -/
def Place.pathTo (place : Place) (name : String) : Path :=
  place.path ++ (segmentsOf name.toList).map Text.lower

/-- The namespaces of a registry are one table: every scope has its place there,
there is one namespace for each path that was entered, and a name finds from every
scope what the table has for it. -/
structure Tabulated (registry : Registry ν) (catalogue : Catalogue ν) : Prop where
  placed : forall id, (∃ scope, registry.scope? id = some scope) ↔
    ∃ place, catalogue.place? id = some place
  spaces : forall id, (∃ kind, registry.kind? id = some kind ∧ kind.ownsSymbols = true) ↔
    ∃ path, catalogue.place? id = some (.space path)
  unique : forall left right path, catalogue.place? left = some (.space path) ->
    catalogue.place? right = some (.space path) -> left = right
  owned : forall id place, catalogue.place? id = some place ->
    ∃ space, registry.namespaceOf id = .ok space ∧ catalogue.spaceAt? place.path = some space
  declared : forall id place name, catalogue.place? id = some place ->
    isProper name.toList = true ->
      ∃ inner after, declareNamespace id name registry = .ok inner after ∧
        (catalogue.enter place.path (segmentsOf name.toList)).spaceAt? (place.pathTo name) =
          some inner
  namespaces : forall id place name, catalogue.place? id = some place ->
    isWellFormed name.toList = true ->
      Finds (registry.resolveNamespace id (some name))
        (catalogue.spaceDenoted place.path name.toList)
  functions : forall id place name, catalogue.place? id = some place ->
    isWellFormed name.toList = true ->
      Finds (registry.resolveFunction id name)
        (catalogue.denoted .function place.path name.toList)
  classes : forall id place name, catalogue.place? id = some place ->
    isWellFormed name.toList = true ->
      Finds (registry.resolveClass id name)
        (catalogue.denoted .classLike place.path name.toList)
  constants : forall id place name, catalogue.place? id = some place ->
    isWellFormed name.toList = true ->
      Finds (registry.resolveConstant id name)
        ((catalogue.own.find? (id, name)).or
          (catalogue.denoted .constant place.path name.toList))

namespace Catalogued

variable {root : ScopeId} {registry : Registry ν} {catalogue : Catalogue ν}

/-- A constant is one of the class that is asked, or the one that its name
denotes. -/
theorem resolveConstant_finds (catalogued : Catalogued root registry catalogue) {id : ScopeId}
    {place : Place} (found : catalogue.place? id = some place) {name : String}
    (wellFormed : isWellFormed name.toList = true) :
    Finds (registry.resolveConstant id name)
      ((catalogue.own.find? (id, name)).or
        (catalogue.denoted .constant place.path name.toList)) := by
  have outside := catalogued.resolveSymbol_finds found .constant wellFormed
  have members : ((registry.scope? id).bind fun scope => scope.body.members?) =
    registry.members? id := rfl
  rw [Registry.resolveConstant, members, catalogued.own, Registry.ownConstant?]
  cases registry.members? id with
  | none => exact outside
  | some members =>
      dsimp only [Option.bind_some]
      cases members.constants.find? name with
      | some node => rfl
      | none => exact outside

/-- What is catalogued is one table. -/
theorem tabulated (catalogued : Catalogued root registry catalogue) :
    Tabulated registry catalogue where
  placed id := by
    constructor
    · rintro ⟨scope, present⟩
      exact catalogued.exists_place (Registry.scope?_lt present)
    · rintro ⟨place, found⟩
      exact catalogued.exists_scope found
  spaces id := by
    constructor
    · rintro ⟨kind, kindFound, owns⟩
      obtain ⟨place, found, isSpace, -⟩ := catalogued.places id kind kindFound
      have sameSpace := catalogued.eq_space found (isSpace.trans owns)
      exact ⟨place.path, found.trans (congrArg some sameSpace)⟩
    · rintro ⟨path, found⟩
      obtain ⟨kind, kindFound, owns, -⟩ := catalogued.kind found
      exact ⟨kind, kindFound, owns.symm⟩
  unique := catalogued.unique
  owned id place found := by
    obtain ⟨space, spaceEq, placed⟩ := catalogued.namespaceOf found
    exact ⟨space, spaceEq, catalogued.spaceAt?_eq_some.2 placed⟩
  declared id place name found proper := by
    obtain ⟨inner, after, declared, later, placed⟩ := catalogued.declareNamespace found proper
    exact ⟨inner, after, declared, later.spaceAt?_eq_some.2 placed⟩
  namespaces _ _ _ found := catalogued.resolveNamespace_finds found
  functions _ _ _ found := catalogued.resolveSymbol_finds found .function
  classes _ _ _ found := catalogued.resolveSymbol_finds found .classLike
  constants _ _ _ found := catalogued.resolveConstant_finds found

/-- A namespace that is there already is the one that its declaration answers. -/
theorem declareNamespace_again (catalogued : Catalogued root registry catalogue)
    {id inner : ScopeId} {place : Place} {name : String} (found : catalogue.place? id = some place)
    (proper : isProper name.toList = true)
    (present : catalogue.place? inner = some (.space (place.pathTo name))) :
    ∃ after, Scopes.declareNamespace id name registry = .ok inner after := by
  obtain ⟨other, after, declared, later, placed⟩ := catalogued.declareNamespace found proper
  have kept :=
    Catalogue.keepsPlaces_enter catalogue place.path (segmentsOf name.toList) inner _ present
  rw [later.unique inner other _ kept placed]
  exact ⟨after, declared⟩

end Catalogued

/-- Whatever a program does on its scopes, its namespaces are the table that the
same operations fill. A namespace, once declared, is the one that every later
declaration of its path answers. -/
theorem namespaces_are_one_table (operations : List (Operation ν))
    (wellNamed : forall operation, operation ∈ operations -> operation.isWellNamed = true) :
    Tabulated (Registry.performed operations) (Catalogue.performed operations) ∧
      forall earlier id name later place,
        operations = earlier ++ Operation.space id name :: later ->
        (Catalogue.performed earlier).place? id = some place ->
          ∃ inner first, declareNamespace id name (Registry.performed earlier) = .ok inner first ∧
            forall other outer spelling,
              (Catalogue.performed operations).place? other = some outer ->
              isProper spelling.toList = true -> outer.pathTo spelling = place.pathTo name ->
                ∃ last, declareNamespace other spelling (Registry.performed operations) =
                  .ok inner last := by
  refine ⟨(Catalogued.performed wellNamed).tabulated, ?_⟩
  rintro earlier id name later place rfl found
  have before : Catalogued 0 (Registry.performed earlier) (Catalogue.performed earlier) :=
    Catalogued.performed fun operation member => wellNamed _ (List.mem_append_left _ member)
  have proper : isProper name.toList = true := wellNamed (.space id name) (by simp)
  obtain ⟨inner, first, declared, -, placed⟩ := before.declareNamespace found proper
  refine ⟨inner, first, declared, fun other outer spelling otherFound otherProper same => ?_⟩
  refine (Catalogued.performed wellNamed).declareNamespace_again otherFound otherProper ?_
  rw [same, Catalogue.performed, List.foldl_append, List.foldl_cons]
  refine Catalogue.keepsPlaces_foldl_after _ later inner _ ?_
  exact (Catalogue.after_space found name).symm ▸ placed

/-- Two spellings of one namespace, with a function and constants in it, a function
of the same name outside, and a class with a constant of its own. -/
def sharedNamespace : List (Operation String) :=
  [.space 0 "App\\Util", .function 2 "Render" "inner", .child 3, .function 0 "render" "outer",
    .classLike 4 "Page" "page", .constant 6 "LIMIT" "own", .constant 4 "LIMIT" "shared",
    .space 0 "APP\\util"]

/-- From a scope inside the namespace an unqualified name finds the inner function,
an absolute one the outer; the class is asked for its own constant first; and the
second spelling leads to the namespace that the first one opened. -/
theorem namespaces_are_one_table_shared :
    (forall operation, operation ∈ sharedNamespace -> operation.isWellNamed = true) ∧
      (Registry.performed sharedNamespace).resolveFunction 4 "RENDER" = .ok "inner" ∧
      (Registry.performed sharedNamespace).resolveFunction 4 "\\render" = .ok "outer" ∧
      (Registry.performed sharedNamespace).resolveConstant 6 "LIMIT" = .ok "own" ∧
      (Registry.performed sharedNamespace).resolveConstant 6 "\\App\\Util\\LIMIT" =
        .ok "shared" ∧
      (Registry.performed sharedNamespace).resolveNamespace 4 (some "\\APP\\UTIL") = .ok 2 ∧
      ∃ (inner : ScopeId) (first last : Registry String),
        declareNamespace 0 "App\\Util" (Registry.performed []) = .ok inner first ∧
          declareNamespace 5 "app\\UTIL" (Registry.performed sharedNamespace) =
            .ok inner last := by
  have wellNamed : forall operation, operation ∈ sharedNamespace ->
      operation.isWellNamed = true :=
    List.all_eq_true.1 (by decide +kernel)
  obtain ⟨table, again⟩ := namespaces_are_one_table sharedNamespace wellNamed
  have inside : (Catalogue.performed sharedNamespace).place? 4 =
      some ⟨false, false, ["app", "util"]⟩ := by decide +kernel
  have inClass : (Catalogue.performed sharedNamespace).place? 6 =
      some ⟨false, true, ["app", "util"]⟩ := by decide +kernel
  refine ⟨wellNamed, ?_, ?_, ?_, ?_, ?_, ?_⟩
  · exact (table.functions 4 _ "RENDER" inside (by decide +kernel)).eq_ok (by decide +kernel)
  · exact (table.functions 4 _ "\\render" inside (by decide +kernel)).eq_ok (by decide +kernel)
  · exact (table.constants 6 _ "LIMIT" inClass (by decide +kernel)).eq_ok (by decide +kernel)
  · exact (table.constants 6 _ "\\App\\Util\\LIMIT" inClass (by decide +kernel)).eq_ok
      (by decide +kernel)
  · exact (table.namespaces 4 _ "\\APP\\UTIL" inside (by decide +kernel)).eq_ok
      (by decide +kernel)
  · obtain ⟨inner, first, declared, later⟩ :=
      again [] 0 "App\\Util" sharedNamespace.tail (.space []) rfl rfl
    obtain ⟨last, repeated⟩ := later 5 ⟨false, false, []⟩ "app\\UTIL" (by decide +kernel)
      (by decide +kernel) (by decide +kernel)
    exact ⟨inner, first, last, declared, repeated⟩

/-- A class answers with its own constant even where the name is absolute and the
global namespace has a constant of that name: the table alone does not say what a
class finds. -/
theorem class_constant_hides_absolute :
    ¬ forall operations : List (Operation String),
      (forall operation, operation ∈ operations -> operation.isWellNamed = true) ->
      forall id place name, (Catalogue.performed operations).place? id = some place ->
        isWellFormed name.toList = true ->
          Finds ((Registry.performed operations).resolveConstant id name)
            ((Catalogue.performed operations).denoted .constant place.path name.toList) := by
  intro claimed
  let operations : List (Operation String) :=
    [.classLike 0 "Page" "page", .constant 0 "LIMIT" "global", .constant 1 "\\LIMIT" "own"]
  have finds := claimed operations (List.all_eq_true.1 (by decide +kernel)) 1 ⟨false, true, []⟩
    "\\LIMIT" (by decide +kernel) (by decide +kernel)
  have listed : (Catalogue.performed operations).denoted .constant [] "\\LIMIT".toList =
      some "global" := by decide +kernel
  have answered : (Registry.performed operations).resolveConstant 1 "\\LIMIT" = .ok "own" := by
    decide +kernel
  have conflict := answered.symm.trans (finds.eq_ok listed)
  simp at conflict

end PhpTaint.Scopes
