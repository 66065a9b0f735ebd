import PhpTaint.Proofs.Scopes.Building
import PhpTaint.Proofs.Scopes.Segments

/-!
# The catalogue of declarations

A catalogue is the flat view of a registry: for every scope the path of the
namespace that it belongs to, and one table of declarations that is keyed by
path and name. No scope is nested in another one there. `Catalogued` relates the
two: the namespaces of the registry are the spaces of the catalogue, one for each
path, and what the tables of a namespace list is what the catalogue lists at its
path. Every operation on the registry has its counterpart on the catalogue.
-/

namespace PhpTaint.Scopes

open Outcome

/-- A path of namespaces, outermost first, in lower case. -/
abbrev Path := List String

/-- What a catalogue knows of a scope. -/
structure Place where
  isSpace : Bool
  isClass : Bool
  /-- The path of the namespace that the scope belongs to. -/
  path : Path
  deriving DecidableEq, Repr

/-- The place of the namespace at a path. -/
def Place.space (path : Path) : Place := ⟨true, false, path⟩

/-- The flat view of a registry. -/
structure Catalogue (ν : Type) where
  /-- The places of the scopes, in order of opening. -/
  places : List Place
  /-- The declarations, by kind, path and key. -/
  entries : Table (SymbolKind × Path × String) ν
  /-- The constants of classes, by scope and name. -/
  own : Table (ScopeId × String) ν

namespace Catalogue

variable {ν : Type}

/-- The catalogue of a program that declares nothing. -/
def start : Catalogue ν := ⟨[.space []], ∅, ∅⟩

/-- The place of a scope. -/
def place? (catalogue : Catalogue ν) (id : ScopeId) : Option Place := catalogue.places[id]?

/-- The namespace at a path. -/
def spaceAt? (catalogue : Catalogue ν) (path : Path) : Option ScopeId :=
  catalogue.places.findIdx? (· == Place.space path)

/-- The catalogue with one more scope. -/
def add (catalogue : Catalogue ν) (place : Place) : Catalogue ν :=
  { catalogue with places := catalogue.places ++ [place] }

/-- The catalogue with a namespace at a path. -/
def addSpace (catalogue : Catalogue ν) (path : Path) : Catalogue ν :=
  if (catalogue.spaceAt? path).isSome then catalogue else catalogue.add (.space path)

/-- The catalogue with namespaces one in the other. -/
def enter (catalogue : Catalogue ν) (path : Path) : List String -> Catalogue ν
  | [] => catalogue
  | segment :: rest =>
      (catalogue.addSpace (path ++ [Text.lower segment])).enter (path ++ [Text.lower segment]) rest

/-- The catalogue with one more declaration. -/
def declare (catalogue : Catalogue ν) (kind : SymbolKind) (path : Path) (key : String) (node : ν) :
    Catalogue ν :=
  { catalogue with entries := catalogue.entries.insert (kind, path, key) node }

/-- The catalogue with one more constant of a class. -/
def declareOwn (catalogue : Catalogue ν) (id : ScopeId) (name : String) (node : ν) : Catalogue ν :=
  { catalogue with own := catalogue.own.insert (id, name) node }

/-- A place that is added is that of the next scope. -/
theorem place?_add (catalogue : Catalogue ν) (added place : Place) (id : ScopeId) :
    (catalogue.add added).place? id = some place ↔
      catalogue.place? id = some place ∨ id = catalogue.places.length ∧ added = place := by
  unfold place? add
  rcases Nat.lt_trichotomy id catalogue.places.length with below | rfl | above
  · rw [List.getElem?_append_left below]
    simp [Nat.ne_of_lt below]
  · simp
  · rw [List.getElem?_eq_none (by simp; omega), List.getElem?_eq_none (by omega)]
    simp [Nat.ne_of_gt above]

/-- Every scope has kept its place. -/
def KeepsPlaces (before after : Catalogue ν) : Prop :=
  forall id place, before.place? id = some place -> after.place? id = some place

theorem KeepsPlaces.refl (catalogue : Catalogue ν) : KeepsPlaces catalogue catalogue :=
  fun _ _ found => found

theorem KeepsPlaces.trans {before middle after : Catalogue ν} (first : KeepsPlaces before middle)
    (second : KeepsPlaces middle after) : KeepsPlaces before after :=
  fun id place found => second id place (first id place found)

/-- Adding a place moves no other. -/
theorem keepsPlaces_add (catalogue : Catalogue ν) (added : Place) :
    KeepsPlaces catalogue (catalogue.add added) :=
  fun _ _ found => (place?_add ..).2 (Or.inl found)

/-- Entering a path of namespaces moves no scope. -/
theorem keepsPlaces_enter (catalogue : Catalogue ν) (path : Path) (segments : List String) :
    KeepsPlaces catalogue (catalogue.enter path segments) := by
  induction segments generalizing catalogue path with
  | nil => exact KeepsPlaces.refl catalogue
  | cons segment rest inductionHypothesis =>
      apply KeepsPlaces.trans _ (inductionHypothesis _ _)
      unfold addSpace
      split
      · exact KeepsPlaces.refl catalogue
      · exact keepsPlaces_add catalogue _

/-- Entering namespaces declares nothing. -/
theorem entries_enter (catalogue : Catalogue ν) (path : Path) (segments : List String) :
    (catalogue.enter path segments).entries = catalogue.entries := by
  induction segments generalizing catalogue path with
  | nil => rfl
  | cons segment rest inductionHypothesis =>
      rw [enter, inductionHypothesis]
      unfold addSpace
      split <;> rfl

/-- Only the scopes of the catalogue have places. -/
theorem place?_lt {catalogue : Catalogue ν} {id : ScopeId} {place : Place}
    (found : catalogue.place? id = some place) : id < catalogue.places.length :=
  (List.getElem?_eq_some_iff.1 found).1

end Catalogue

namespace Registry

variable {ν : Type}

/-- The scope around the scope at a place. -/
def parent? (registry : Registry ν) (id : ScopeId) : Option ScopeId :=
  (registry.scope? id).bind Scope.parent

/-- The namespace that another one lists under a key. -/
def space? (registry : Registry ν) (id : ScopeId) (key : String) : Option ScopeId :=
  (registry.symbolsOf id).namespaces.find? key

/-- The declaration that a namespace lists under a key. -/
def symbol? (registry : Registry ν) (kind : SymbolKind) (id : ScopeId) (key : String) : Option ν :=
  (kind.table (registry.symbolsOf id)).find? key

/-- The members of a class scope, if it is one. -/
def members? (registry : Registry ν) (id : ScopeId) : Option (Members ν) :=
  (registry.scope? id).bind fun scope => scope.body.members?

/-- The registry after a change of the tables of a namespace. -/
abbrev changeSymbols (registry : Registry ν) (id : ScopeId) (change : Symbols ν -> Symbols ν) :
    Registry ν :=
  registry.updateScope id fun scope => { scope with body := scope.body.updateSymbols change }

/-- The registry after a change of the tables of a class. -/
abbrev changeMembers (registry : Registry ν) (id : ScopeId) (change : Members ν -> Members ν) :
    Registry ν :=
  registry.updateScope id fun scope => { scope with body := scope.body.updateMembers change }

/-- The constant that a class scope lists under a name. -/
def ownConstant? (registry : Registry ν) (id : ScopeId) (name : String) : Option ν :=
  (registry.members? id).bind fun members => members.constants.find? name

end Registry

/-- A registry and its flat view belong together. -/
structure Catalogued {ν : Type} (root : ScopeId) (registry : Registry ν)
    (catalogue : Catalogue ν) : Prop where
  rooted : Rooted root registry
  size : catalogue.places.length = registry.scopes.size
  global : catalogue.place? root = some (.space [])
  places : forall id kind, registry.kind? id = some kind -> ∃ place,
    catalogue.place? id = some place ∧ place.isSpace = kind.ownsSymbols ∧
      place.isClass = kind.members?.isSome
  inherited : forall id place parent, catalogue.place? id = some place ->
    place.isSpace = false -> registry.parent? id = some parent ->
      ∃ outer, catalogue.place? parent = some outer ∧ outer.path = place.path
  unique : forall left right path, catalogue.place? left = some (.space path) ->
    catalogue.place? right = some (.space path) -> left = right
  founded : forall id path key, catalogue.place? id = some (.space (path ++ [key])) ->
    ∃ outer, catalogue.place? outer = some (.space path)
  nested : forall id path key inner, catalogue.place? id = some (.space path) ->
    (registry.space? id key = some inner ↔
      catalogue.place? inner = some (.space (path ++ [key])))
  entries : forall kind path key node, catalogue.entries.find? (kind, path, key) = some node ↔
    ∃ id, catalogue.place? id = some (.space path) ∧ registry.symbol? kind id key = some node
  own : forall id name, catalogue.own.find? (id, name) = registry.ownConstant? id name

namespace Registry

variable {ν : Type} (registry : Registry ν)

/-- A new scope has the kind of its body. -/
theorem kind?_push (scope : Scope ν) (id : ScopeId) :
    (registry.push scope).kind? id =
      if id = registry.scopes.size then some scope.body.outline else registry.kind? id := by
  rw [kind?, scope?_push]
  split <;> rfl

/-- A new scope has its own parent, and the others keep theirs. -/
theorem parent?_push (scope : Scope ν) (id : ScopeId) :
    (registry.push scope).parent? id =
      if id = registry.scopes.size then scope.parent else registry.parent? id := by
  rw [parent?, scope?_push]
  split <;> rfl

/-- A new scope has the members of its body. -/
theorem members?_push (scope : Scope ν) (id : ScopeId) :
    (registry.push scope).members? id =
      if id = registry.scopes.size then scope.body.members? else registry.members? id := by
  rw [members?, scope?_push]
  split <;> rfl

/-- A change that keeps kinds changes no kind. -/
theorem kind?_updateScope (id other : ScopeId) {change : Scope ν -> Scope ν}
    (kinds : forall scope, (change scope).body.outline = scope.body.outline) :
    (registry.updateScope id change).kind? other = registry.kind? other := by
  rw [kind?, scope?_updateScope]
  split
  · rw [Option.map_map, kind?]
    cases registry.scope? other with
    | none => rfl
    | some scope => exact congrArg some (kinds scope)
  · rfl

/-- A change that keeps parents changes no parent. -/
theorem parent?_updateScope (id other : ScopeId) {change : Scope ν -> Scope ν}
    (parents : forall scope, (change scope).parent = scope.parent) :
    (registry.updateScope id change).parent? other = registry.parent? other := by
  rw [parent?, scope?_updateScope]
  split
  · rw [parent?]
    cases registry.scope? other with
    | none => rfl
    | some scope => exact parents scope
  · rfl

/-- What a namespace declares after its tables were changed. -/
theorem symbolsOf_updateSymbols {id : ScopeId} {kind : Body ν}
    (found : registry.kind? id = some kind) (owns : kind.ownsSymbols = true) (other : ScopeId)
    (change : Symbols ν -> Symbols ν) :
    (registry.changeSymbols id change).symbolsOf other =
      if other = id then change (registry.symbolsOf id) else registry.symbolsOf other := by
  unfold symbolsOf
  rw [scope?_updateScope]
  by_cases same : id = other
  · subst same
    obtain ⟨scope, present, rfl⟩ := exists_of_kind? found
    rw [Body.ownsSymbols_outline] at owns
    rw [if_pos rfl, if_pos rfl, present]
    show (scope.body.updateSymbols change).symbols?.getD ∅ = change (scope.body.symbols?.getD ∅)
    revert owns
    cases scope.body <;> simp [Body.ownsSymbols, Body.symbols?, Body.updateSymbols]
  · rw [if_neg same, if_neg (Ne.symm same)]

/-- A change of the members of a class leaves all namespaces alone. -/
theorem symbolsOf_updateScope (id other : ScopeId) {change : Scope ν -> Scope ν}
    (tables : forall scope, (change scope).body.symbols? = scope.body.symbols?) :
    (registry.updateScope id change).symbolsOf other = registry.symbolsOf other := by
  unfold symbolsOf
  rw [scope?_updateScope]
  by_cases same : id = other
  · rw [if_pos same]
    cases registry.scope? other with
    | none => rfl
    | some scope => exact congrArg (Option.getD · ∅) (tables scope)
  · rw [if_neg same]

/-- A change that keeps members changes no member. -/
theorem members?_updateScope (id other : ScopeId) {change : Scope ν -> Scope ν}
    (tables : forall scope, (change scope).body.members? = scope.body.members?) :
    (registry.updateScope id change).members? other = registry.members? other := by
  rw [members?, scope?_updateScope]
  split
  · rw [members?]
    cases registry.scope? other with
    | none => rfl
    | some scope => exact tables scope
  · rfl

/-- A change of members concerns one scope only. -/
theorem members?_updateMembers (id other : ScopeId) (change : Members ν -> Members ν) :
    (registry.changeMembers id change).members? other =
      if other = id then (registry.members? id).map change else registry.members? other := by
  rw [members?, scope?_updateScope]
  by_cases same : id = other
  · subst same
    rw [if_pos rfl, if_pos rfl, members?]
    cases registry.scope? id with
    | none => rfl
    | some scope =>
        show (scope.body.updateMembers change).members? = scope.body.members?.map change
        cases scope.body <;> rfl
  · rw [if_neg same, if_neg (Ne.symm same)]
    rfl

end Registry

namespace Catalogued

variable {ν : Type} {root : ScopeId} {registry after : Registry ν} {catalogue : Catalogue ν}

/-- Every scope has a place in the catalogue. -/
theorem exists_place (catalogued : Catalogued root registry catalogue) {id : ScopeId}
    (bound : id < registry.scopes.size) : ∃ place, catalogue.place? id = some place := by
  rw [← catalogued.size] at bound
  exact ⟨catalogue.places[id], List.getElem?_eq_getElem bound⟩

/-- What has a place in the catalogue is a scope. -/
theorem lt_size (catalogued : Catalogued root registry catalogue) {id : ScopeId} {place : Place}
    (found : catalogue.place? id = some place) : id < registry.scopes.size :=
  catalogued.size ▸ Catalogue.place?_lt found

/-- The kind of a scope is that of its place. -/
theorem kind (catalogued : Catalogued root registry catalogue) {id : ScopeId} {place : Place}
    (found : catalogue.place? id = some place) :
    ∃ kind, registry.kind? id = some kind ∧ place.isSpace = kind.ownsSymbols ∧
      place.isClass = kind.members?.isSome := by
  obtain ⟨scope, present⟩ := Registry.exists_scope (catalogued.lt_size found)
  have kindFound := Registry.kind?_of_scope present
  obtain ⟨other, same, isSpace, isClass⟩ := catalogued.places id _ kindFound
  obtain rfl := Option.some.inj (found.symm.trans same)
  exact ⟨_, kindFound, isSpace, isClass⟩

/-- The next scope has no place yet. -/
theorem ne_size (catalogued : Catalogued root registry catalogue) {id : ScopeId} {place : Place}
    (found : catalogue.place? id = some place) : id ≠ registry.scopes.size :=
  Nat.ne_of_lt (catalogued.lt_size found)

/-- A place that belongs to a namespace is the place of its path. -/
theorem eq_space (catalogued : Catalogued root registry catalogue) {id : ScopeId} {place : Place}
    (found : catalogue.place? id = some place) (isSpace : place.isSpace = true) :
    place = .space place.path := by
  obtain ⟨kind, -, owns, isClass⟩ := catalogued.kind found
  obtain ⟨_, _, path⟩ := place
  cases isSpace
  have plain : kind.members?.isSome = false := by
    revert owns
    cases kind <;> simp [Body.ownsSymbols, Body.symbols?, Body.members?]
  cases isClass.trans plain
  rfl

/-- The namespace at a path is the one that the catalogue finds. -/
theorem spaceAt?_eq_some (catalogued : Catalogued root registry catalogue) {path : Path}
    {id : ScopeId} :
    catalogue.spaceAt? path = some id ↔ catalogue.place? id = some (.space path) := by
  unfold Catalogue.spaceAt?
  constructor
  · intro found
    obtain ⟨bound, matched, -⟩ := List.findIdx?_eq_some_iff_getElem.1 found
    rw [Catalogue.place?, List.getElem?_eq_getElem bound, beq_iff_eq.1 matched]
  · intro found
    cases searched : catalogue.places.findIdx? (· == Place.space path) with
    | none =>
        have missed := List.findIdx?_eq_none_iff.1 searched _ (List.mem_of_getElem? found)
        simp at missed
    | some other =>
        obtain ⟨bound, matched, -⟩ := List.findIdx?_eq_some_iff_getElem.1 searched
        have same : catalogue.place? other = some (.space path) := by
          rw [Catalogue.place?, List.getElem?_eq_getElem bound, beq_iff_eq.1 matched]
        rw [catalogued.unique other id path same found]

/-- A registry in which every scope has kept its kind, its parent and its nested
namespaces has kept its places. -/
theorem keep {later : Catalogue ν} (catalogued : Catalogued root registry catalogue)
    (rooted : Rooted root after) (size : after.scopes.size = registry.scopes.size)
    (kinds : forall id, after.kind? id = registry.kind? id)
    (parents : forall id, after.parent? id = registry.parent? id)
    (spaces : forall id key, after.space? id key = registry.space? id key)
    (places : later.places = catalogue.places)
    (entries : forall kind path key node, later.entries.find? (kind, path, key) = some node ↔
      ∃ id, catalogue.place? id = some (.space path) ∧ after.symbol? kind id key = some node)
    (own : forall id name, later.own.find? (id, name) = after.ownConstant? id name) :
    Catalogued root after later := by
  have place (id : ScopeId) : later.place? id = catalogue.place? id := by
    rw [Catalogue.place?, places]
    rfl
  refine ⟨rooted, ?_, ?_, ?_, ?_, ?_, ?_, ?_, ?_, own⟩
  · rw [places, catalogued.size, size]
  · rw [place]
    exact catalogued.global
  · intro id kind found
    rw [kinds] at found
    rw [place]
    exact catalogued.places id kind found
  · intro id outlined parent found plain parentFound
    rw [place] at found
    rw [parents] at parentFound
    rw [place]
    exact catalogued.inherited id outlined parent found plain parentFound
  · intro left right path leftFound rightFound
    rw [place] at leftFound rightFound
    exact catalogued.unique left right path leftFound rightFound
  · intro id path key found
    rw [place] at found
    simp only [place]
    exact catalogued.founded id path key found
  · intro id path key inner found
    rw [place] at found
    rw [spaces, place]
    exact catalogued.nested id path key inner found
  · intro kind path key node
    simp only [place]
    exact entries kind path key node

/-- The catalogue is one of the scopes alone. -/
theorem of_scopes_eq (catalogued : Catalogued root registry catalogue)
    (same : after.scopes = registry.scopes) : Catalogued root after catalogue := by
  obtain ⟨scopes, histories, journal⟩ := registry
  obtain ⟨_, _, _⟩ := after
  subst same
  exact catalogued.keep (catalogued.rooted.of_scopes_eq rfl) rfl (fun _ => rfl) (fun _ => rfl)
    (fun _ _ => rfl) rfl catalogued.entries catalogued.own

/-- The places of a registry in which one more scope was opened. -/
theorem places_add (catalogued : Catalogued root registry catalogue) {added : Place}
    {body : Body ν}
    (kinds : forall id, after.kind? id =
      if id = registry.scopes.size then some body else registry.kind? id)
    (isSpace : added.isSpace = body.ownsSymbols) (isClass : added.isClass = body.members?.isSome)
    (id : ScopeId) (kind : Body ν) (kindFound : after.kind? id = some kind) :
    ∃ place, (catalogue.add added).place? id = some place ∧
      place.isSpace = kind.ownsSymbols ∧ place.isClass = kind.members?.isSome := by
  rw [kinds] at kindFound
  split at kindFound
  · rename_i new
    cases kindFound
    have last : (catalogue.add added).place? id = some added :=
      (Catalogue.place?_add ..).2 (Or.inr ⟨new.trans catalogued.size.symm, rfl⟩)
    exact ⟨added, last, isSpace, isClass⟩
  · obtain ⟨place, placeFound, rest⟩ := catalogued.places id kind kindFound
    exact ⟨place, (Catalogue.place?_add ..).2 (Or.inl placeFound), rest⟩

/-- The new scope has the path of the scope around it, unless it is a namespace. -/
theorem inherited_add (catalogued : Catalogued root registry catalogue) {added outer : Place}
    {parent : ScopeId} (found : catalogue.place? parent = some outer)
    (parents : forall id, after.parent? id =
      if id = registry.scopes.size then some parent else registry.parent? id)
    (within : added.isSpace = false -> outer.path = added.path) (id : ScopeId) (place : Place)
    (outside : ScopeId) (placeFound : (catalogue.add added).place? id = some place)
    (plain : place.isSpace = false) (parentFound : after.parent? id = some outside) :
    ∃ around, (catalogue.add added).place? outside = some around ∧ around.path = place.path := by
  rw [parents] at parentFound
  rcases (Catalogue.place?_add ..).1 placeFound with present | ⟨new, rfl⟩
  · rw [if_neg (catalogued.ne_size present)] at parentFound
    obtain ⟨around, aroundFound, same⟩ :=
      catalogued.inherited id place outside present plain parentFound
    exact ⟨around, (Catalogue.place?_add ..).2 (Or.inl aroundFound), same⟩
  · rw [if_pos (new.trans catalogued.size)] at parentFound
    cases parentFound
    exact ⟨outer, (Catalogue.place?_add ..).2 (Or.inl found), within plain⟩

/-- Opening a scope that is no namespace. -/
theorem push (catalogued : Catalogued root registry catalogue) {scope : Scope ν}
    {parent : ScopeId} {outer : Place} (rooted : Rooted root (registry.push scope))
    (parentEq : scope.parent = some parent) (found : catalogue.place? parent = some outer)
    (plain : scope.body.ownsSymbols = false)
    (unlisted : forall members, scope.body.members? = some members -> members = ∅) :
    Catalogued root (registry.push scope)
      (catalogue.add ⟨false, scope.body.members?.isSome, outer.path⟩) := by
  have old {id : ScopeId} {path : Path} :
      (catalogue.add ⟨false, scope.body.members?.isSome, outer.path⟩).place? id =
        some (.space path) ↔ catalogue.place? id = some (.space path) := by
    rw [Catalogue.place?_add]
    simp [Place.space]
  have parents (id : ScopeId) : (registry.push scope).parent? id =
      if id = registry.scopes.size then some parent else registry.parent? id :=
    parentEq ▸ registry.parent?_push scope id
  refine ⟨rooted, ?_, old.2 catalogued.global,
    catalogued.places_add (registry.kind?_push scope) ?_ ?_,
    catalogued.inherited_add found parents fun _ => rfl, ?_, ?_, ?_, ?_, ?_⟩
  · rw [Registry.size_push, ← catalogued.size]
    exact List.length_append
  · rw [Body.ownsSymbols_outline, plain]
  · cases scope.body <;> rfl
  · intro left right path leftFound rightFound
    exact catalogued.unique left right path (old.1 leftFound) (old.1 rightFound)
  · intro id path key placeFound
    obtain ⟨around, aroundFound⟩ := catalogued.founded id path key (old.1 placeFound)
    exact ⟨around, old.2 aroundFound⟩
  · intro id path key inner placeFound
    have present := old.1 placeFound
    rw [Registry.space?, Registry.symbolsOf_push, if_neg (catalogued.ne_size present), old]
    exact catalogued.nested id path key inner present
  · intro kind path key node
    rw [show (catalogue.add _).entries = catalogue.entries from rfl, catalogued.entries]
    constructor
    · rintro ⟨id, present, listed⟩
      refine ⟨id, old.2 present, ?_⟩
      rw [Registry.symbol?, Registry.symbolsOf_push, if_neg (catalogued.ne_size present)]
      exact listed
    · rintro ⟨id, placeFound, listed⟩
      have present := old.1 placeFound
      rw [Registry.symbol?, Registry.symbolsOf_push, if_neg (catalogued.ne_size present)] at listed
      exact ⟨id, present, listed⟩
  · intro id name
    rw [show (catalogue.add _).own = catalogue.own from rfl, catalogued.own,
      Registry.ownConstant?, Registry.ownConstant?, Registry.members?_push]
    split
    · rename_i new
      have missing : registry.members? id = none := by
        rw [Registry.members?, Registry.scope?, new, Array.getElem?_eq_none (Nat.le_refl _)]
        rfl
      rw [missing]
      cases listed : scope.body.members? with
      | none => rfl
      | some members =>
          rw [unlisted members listed]
          rfl
    · rfl

/-- A change of the bindings of a scope. -/
theorem rebind (catalogued : Catalogued root registry catalogue) (id : ScopeId)
    (change : Table String (Binding ν) -> Table String (Binding ν)) :
    Catalogued root (registry.updateScope id fun scope =>
      { scope with bindings := change scope.bindings }) catalogue := by
  have symbols (other : ScopeId) := registry.symbolsOf_updateScope id other
    fun (scope : Scope ν) =>
      (rfl : ({ scope with bindings := change scope.bindings } : Scope ν).body.symbols? = _)
  have members (other : ScopeId) := registry.members?_updateScope id other
    fun (scope : Scope ν) =>
      (rfl : ({ scope with bindings := change scope.bindings } : Scope ν).body.members? = _)
  refine catalogued.keep (catalogued.rooted.update (fun _ => rfl) (fun _ => rfl) ?_)
    (Registry.size_updateScope ..) (fun other => registry.kind?_updateScope id other fun _ => rfl)
    (fun other => registry.parent?_updateScope id other fun _ => rfl)
    (fun other key => ?_) rfl ?_ ?_
  · intro scope present name inner listed
    refine catalogued.rooted.namespaces id name inner ?_
    rw [Registry.symbolsOf_of_scope present]
    exact listed
  · rw [Registry.space?, symbols]
    rfl
  · intro kind path key node
    simp only [Registry.symbol?, symbols]
    exact catalogued.entries kind path key node
  · intro other name
    rw [Registry.ownConstant?, members]
    exact catalogued.own other name

/-- A change of the members of a class. -/
theorem changeMembers {later : Catalogue ν} (catalogued : Catalogued root registry catalogue)
    (id : ScopeId) (change : Members ν -> Members ν) (places : later.places = catalogue.places)
    (entries : later.entries = catalogue.entries)
    (own : forall other name, later.own.find? (other, name) =
      (registry.changeMembers id change).ownConstant? other name) :
    Catalogued root (registry.changeMembers id change) later := by
  have symbols (other : ScopeId) :
      (registry.changeMembers id change).symbolsOf other = registry.symbolsOf other :=
    registry.symbolsOf_updateScope id other fun scope => by cases scope.body <;> rfl
  refine catalogued.keep (catalogued.rooted.updateMembers id change).rooted
    (Registry.size_updateScope ..)
    (fun other => registry.kind?_updateScope id other fun _ => Body.outline_updateMembers _ _)
    (fun other => registry.parent?_updateScope id other fun _ => rfl)
    (fun other key => ?_) places ?_ own
  · rw [Registry.space?, symbols]
    rfl
  · intro kind path key node
    rw [entries]
    simp only [Registry.symbol?, symbols]
    exact catalogued.entries kind path key node

/-- A class lists a method or a property. -/
theorem listMember (catalogued : Catalogued root registry catalogue) (id : ScopeId)
    (change : Members ν -> Members ν)
    (constants : forall members, (change members).constants = members.constants) :
    Catalogued root (registry.changeMembers id change) catalogue := by
  refine catalogued.changeMembers id change rfl rfl fun other name => ?_
  rw [catalogued.own, Registry.ownConstant?, Registry.ownConstant?, Registry.members?_updateMembers]
  split
  · rename_i same
    subst same
    cases registry.members? other with
    | none => rfl
    | some members =>
        show members.constants.find? name = (change members).constants.find? name
        rw [constants]
  · rfl

/-- A class lists a constant. -/
theorem listOwn (catalogued : Catalogued root registry catalogue) {id : ScopeId} {place : Place}
    (found : catalogue.place? id = some place) (isClass : place.isClass = true) (name : String)
    (node : ν) :
    Catalogued root
      (registry.changeMembers id fun members =>
        { members with constants := members.constants.insert name node })
      (catalogue.declareOwn id name node) := by
  obtain ⟨kind, kindFound, -, kindClass⟩ := catalogued.kind found
  obtain ⟨members, listed⟩ : ∃ members, registry.members? id = some members := by
    obtain ⟨scope, present, rfl⟩ := Registry.exists_of_kind? kindFound
    rw [Registry.members?, present]
    rw [isClass] at kindClass
    revert kindClass
    show true = scope.body.outline.members?.isSome -> ∃ members, scope.body.members? = some members
    cases scope.body <;>
      simp [Body.members?, Body.outline, Body.updateSymbols, Body.updateMembers]
  refine catalogued.changeMembers id _ rfl rfl fun other wanted => ?_
  rw [Catalogue.declareOwn, Table.find?_insert, catalogued.own, Registry.ownConstant?,
    Registry.ownConstant?, Registry.members?_updateMembers]
  simp only [Prod.mk.injEq]
  by_cases same : other = id
  · subst same
    rw [if_pos rfl, listed]
    show _ = (members.constants.insert name node).find? wanted
    rw [Table.find?_insert]
    simp
  · simp [same]

end Catalogued

/-- The tables of a namespace with one more declaration. -/
def SymbolKind.list {ν : Type} (key : String) (node : ν) (symbols : Symbols ν) :
    SymbolKind -> Symbols ν
  | .function => { symbols with functions := symbols.functions.insert key node }
  | .classLike => { symbols with classes := symbols.classes.insert key node }
  | .constant => { symbols with constants := symbols.constants.insert key node }

/-- A listed symbol is found under its kind and its key. -/
theorem SymbolKind.find?_list {ν : Type} (kind other : SymbolKind) (key wanted : String)
    (node : ν) (symbols : Symbols ν) :
    (other.table (kind.list key node symbols)).find? wanted =
      if other = kind ∧ wanted = key then some node else (other.table symbols).find? wanted := by
  cases kind <;> cases other <;> simp [SymbolKind.list, SymbolKind.table, Table.find?_insert]

/-- Listing a symbol opens no namespace. -/
theorem SymbolKind.namespaces_list {ν : Type} (kind : SymbolKind) (key : String) (node : ν)
    (symbols : Symbols ν) : (kind.list key node symbols).namespaces = symbols.namespaces := by
  cases kind <;> rfl

/-- What the tables of namespaces answer once one more symbol is listed. -/
theorem Registry.symbol?_list {ν : Type} {registry : Registry ν} {id : ScopeId} {body : Body ν}
    (found : registry.kind? id = some body) (owns : body.ownsSymbols = true)
    (kind wanted : SymbolKind) (key result : String) (node : ν) (other : ScopeId) :
    (registry.changeSymbols id fun symbols => kind.list key node symbols).symbol? wanted other
        result =
      if other = id ∧ wanted = kind ∧ result = key then some node
      else registry.symbol? wanted other result := by
  rw [symbol?, registry.symbolsOf_updateSymbols found owns, symbol?]
  by_cases same : other = id
  · subst same
    rw [if_pos rfl, SymbolKind.find?_list]
    simp only [true_and]
  · rw [if_neg same, if_neg fun wrong => same wrong.1]

namespace Catalogued

variable {ν : Type} {root : ScopeId} {registry : Registry ν} {catalogue : Catalogue ν}

/-- A namespace lists a declaration. -/
theorem list (catalogued : Catalogued root registry catalogue) {id : ScopeId} {path : Path}
    (found : catalogue.place? id = some (.space path)) (kind : SymbolKind) (key : String)
    (node : ν) :
    Catalogued root (registry.changeSymbols id fun symbols => kind.list key node symbols)
      (catalogue.declare kind path key node) := by
  obtain ⟨body, bodyFound, owns, -⟩ := catalogued.kind found
  have rooted : Rooted root (registry.changeSymbols id fun symbols => kind.list key node symbols) :=
    (catalogued.rooted.updateSymbols id fun listing name inner listed =>
      Or.inl (kind.namespaces_list key node listing ▸ listed)).rooted
  refine catalogued.keep rooted (Registry.size_updateScope ..)
    (fun other => registry.kind?_updateScope id other fun _ => Body.outline_updateSymbols _ _)
    (fun other => registry.parent?_updateScope id other fun _ => rfl)
    (fun other wanted => ?_) rfl ?_ ?_
  · rw [Registry.space?, registry.symbolsOf_updateSymbols bodyFound owns.symm, Registry.space?]
    split
    · rename_i same
      rw [same, SymbolKind.namespaces_list]
    · rfl
  · intro other wantedPath wanted result
    rw [Catalogue.declare, Table.find?_insert]
    simp only [Registry.symbol?_list bodyFound owns.symm, Prod.mk.injEq]
    split
    · rename_i same
      obtain ⟨rfl, rfl, rfl⟩ := same
      constructor
      · intro answered
        exact ⟨id, found, (if_pos ⟨rfl, rfl, rfl⟩).trans answered⟩
      · rintro ⟨place, placeFound, listed⟩
        obtain rfl := catalogued.unique place id wantedPath placeFound found
        exact (if_pos ⟨rfl, rfl, rfl⟩).symm.trans listed
    · rename_i different
      rw [catalogued.entries]
      refine exists_congr fun place => and_congr_right fun placeFound => ?_
      rw [if_neg]
      rintro ⟨rfl, rfl, rfl⟩
      have spaces := Option.some.inj (placeFound.symm.trans found)
      exact different ⟨rfl, congrArg Place.path spaces, rfl⟩
  · intro other name
    rw [Registry.ownConstant?, registry.members?_updateScope id other]
    · exact catalogued.own other name
    · intro scope
      cases scope.body <;> rfl

end Catalogued

end PhpTaint.Scopes
