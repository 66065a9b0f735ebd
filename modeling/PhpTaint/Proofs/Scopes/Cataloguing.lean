import PhpTaint.Proofs.Scopes.Spaces

/-!
# Operations and the catalogue

Each operation on a registry changes the catalogue in its own way: a new scope is
one more place, with the path of the scope that it was opened in; a declaration is
one more entry at the path of the scope that makes it. A class keeps its methods
and constants to itself, and an operation that is refused changes nothing.
-/

namespace PhpTaint.Scopes

open Outcome

namespace Catalogue

variable {ν : Type}

/-- The catalogue with a scope opened inside another one. -/
def addInside (catalogue : Catalogue ν) (place : Place) (isClass : Bool) : Catalogue ν :=
  catalogue.add ⟨false, isClass, place.path⟩

/-- The catalogue after a function was declared in a scope. -/
def declareFunction (catalogue : Catalogue ν) (place : Place) (name : String) (node : ν) :
    Catalogue ν :=
  (if place.isClass then catalogue
    else catalogue.declare .function place.path (Text.lower name) node).addInside place false

/-- The catalogue after a class was declared in a scope. -/
def declareClass (catalogue : Catalogue ν) (place : Place) (name : String) (node : ν) :
    Catalogue ν :=
  (catalogue.declare .classLike place.path (Text.lower name) node).addInside place true

/-- The catalogue after a constant was declared in a scope. -/
def declareConstant (catalogue : Catalogue ν) (id : ScopeId) (place : Place) (name : String)
    (node : ν) : Catalogue ν :=
  if place.isClass then catalogue.declareOwn id name node
  else catalogue.declare .constant place.path name node

/-- A function is listed at the path where it stands, unless it stands in a class. -/
theorem find?_declareFunction (catalogue : Catalogue ν) (place : Place) (name : String) (node : ν)
    (path : Path) (key : String) :
    (catalogue.declareFunction place name node).entries.find? (.function, path, key) =
      if place.isClass = false ∧ place.path = path ∧ Text.lower name = key then some node
      else catalogue.entries.find? (.function, path, key) := by
  unfold declareFunction
  cases place.isClass with
  | true => simp [addInside, add]
  | false =>
      rw [if_neg Bool.false_ne_true]
      show (catalogue.entries.insert (.function, place.path, Text.lower name) node).find? _ = _
      rw [Table.find?_insert]
      simp only [Prod.mk.injEq, true_and, eq_comm]

/-- A scope that was just added. -/
theorem place?_addInside (catalogue : Catalogue ν) (place : Place) (isClass : Bool) :
    (catalogue.addInside place isClass).place? catalogue.places.length =
      some ⟨false, isClass, place.path⟩ :=
  (place?_add ..).2 (Or.inr ⟨rfl, rfl⟩)

/-- Declaring a function moves no scope. -/
theorem keepsPlaces_declareFunction (catalogue : Catalogue ν) (place : Place) (name : String)
    (node : ν) : KeepsPlaces catalogue (catalogue.declareFunction place name node) := by
  apply KeepsPlaces.trans _ (keepsPlaces_add _ _)
  split <;> exact KeepsPlaces.refl catalogue

/-- The entry of a function stands where the function does. -/
theorem place?_declareFunction (catalogue : Catalogue ν) (place : Place) (name : String)
    (node : ν) :
    (catalogue.declareFunction place name node).place? catalogue.places.length =
      some ⟨false, false, place.path⟩ := by
  apply (place?_add ..).2
  right
  constructor
  · split <;> rfl
  · rfl

end Catalogue

namespace Catalogued

variable {ν : Type} {root : ScopeId} {registry : Registry ν} {catalogue : Catalogue ν}
variable {id : ScopeId} {place : Place}

/-- What has a place is a scope. -/
theorem exists_scope (catalogued : Catalogued root registry catalogue)
    (found : catalogue.place? id = some place) : ∃ scope, registry.scope? id = some scope :=
  Registry.exists_scope (catalogued.lt_size found)

/-- Whether a scope is a class is a matter of its place. -/
theorem isClass_iff (catalogued : Catalogued root registry catalogue)
    (found : catalogue.place? id = some place) {scope : Scope ν}
    (present : registry.scope? id = some scope) :
    place.isClass = scope.body.members?.isSome := by
  obtain ⟨kind, kindFound, -, isClass⟩ := catalogued.kind found
  rw [Registry.kind?_of_scope present, Option.some.injEq] at kindFound
  rw [isClass, ← kindFound]
  cases scope.body <;> rfl

/-- A child scope stands where its parent does. -/
theorem openChild (catalogued : Catalogued root registry catalogue)
    (found : catalogue.place? id = some place) (bindings : Table String (Binding ν)) :
    ∃ after, Scopes.openChild id bindings registry = .ok catalogue.places.length after ∧
      Catalogued root after (catalogue.addInside place false) := by
  obtain ⟨scope, present⟩ := catalogued.exists_scope found
  have plain : scope.body.successor.ownsSymbols = false := by cases scope.body <;> rfl
  have inner : scope.body.successor.members? = none := by cases scope.body <;> rfl
  refine ⟨registry.push ⟨scope.name, some id, bindings, scope.body.successor⟩, ?_, ?_⟩
  · refine bind_eq_ok.2 ⟨registry, registry, get_eq_ok.2 ⟨rfl, rfl⟩, ?_⟩
    rw [catalogued.size]
    simp only [present]
    rfl
  · have rooted := catalogued.rooted.openScope
      ⟨scope.name, some id, bindings, scope.body.successor⟩ rfl (Registry.kind?_of_scope present)
      (Rooted.successor_nests scope.body) (by cases scope.body <;> rfl)
    have pushed := catalogued.push rooted.rooted rfl found plain (by simp [inner])
    rw [inner] at pushed
    exact pushed

/-- A binding opens a scope inside another one, unless the name is none of a
variable. -/
theorem bindVariable (catalogued : Catalogued root registry catalogue)
    (found : catalogue.place? id = some place) (name : String) (binding : Binding ν) :
    Ends (Scopes.bindVariable id name binding registry)
      (fun child after => hasSigil name = true ∧ child = catalogue.places.length ∧
        Catalogued root after (catalogue.addInside place false))
      (fun _ after => hasSigil name = false ∧ after = registry) := by
  unfold Scopes.bindVariable
  cases sigil : hasSigil name with
  | true =>
      obtain ⟨after, opened, later⟩ :=
        catalogued.openChild found (Table.empty.insert name binding)
      rw [if_pos rfl, opened]
      exact ⟨rfl, rfl, later⟩
  | false => exact ⟨rfl, rfl⟩

/-- A reference to a global opens a child scope, if the name has a sigil. -/
theorem bindByReference (catalogued : Catalogued root registry catalogue)
    (found : catalogue.place? id = some place) (name : String) (node : ν) :
    Ends (Scopes.bindByReference id name node registry)
      (fun child after => hasSigil name = true ∧ child = catalogue.places.length ∧
        Catalogued root after (catalogue.addInside place false))
      (fun _ after => hasSigil name = false ∧ after = registry) :=
  Ends.bind_ok (ask_eq_ok.2 ⟨catalogued.rooted.globalOf_eq (catalogued.lt_size found), rfl⟩)
    (catalogued.bindVariable found name _)

/-- The entry of a function is a scope inside the one that it is opened in. -/
theorem openFunction (catalogued : Catalogued root registry catalogue)
    (found : catalogue.place? id = some place) (name : String) :
    ∃ after, Scopes.openFunction name (some id) registry =
        .ok catalogue.places.length after ∧
      Catalogued root after (catalogue.addInside place false) := by
  obtain ⟨scope, present⟩ := catalogued.exists_scope found
  refine ⟨registry.push ⟨name, some id, superglobals root, .functionEntry⟩, ?_, ?_⟩
  · rw [catalogued.size]
    refine bind_eq_ok.2 ⟨root, registry, ask_eq_ok.2 ⟨?_, rfl⟩, rfl⟩
    simp only [catalogued.rooted.globalOf_eq (catalogued.lt_size found)]
  · have rooted := catalogued.rooted.openScope ⟨name, some id, superglobals root, .functionEntry⟩
      rfl (Registry.kind?_of_scope present) ⟨rfl, nofun, nofun⟩ rfl
    exact catalogued.push rooted.rooted rfl found rfl nofun

/-- A binding on entry is no matter of the catalogue. -/
theorem bindOnEntry (catalogued : Catalogued root registry catalogue) (id : ScopeId)
    (name : String) (binding : Binding ν) :
    Ends (Scopes.bindOnEntry id name binding registry)
      (fun _ after => Catalogued root after catalogue) (fun _ after => after = registry) := by
  unfold Scopes.bindOnEntry
  rw [run_get_bind]
  cases present : registry.scope? id with
  | none => rfl
  | some scope =>
      obtain ⟨title, parent, bindings, body⟩ := scope
      cases body with
      | functionEntry =>
          cases hasSigil name with
          | true => exact catalogued.rebind id fun bindings => bindings.insert name binding
          | false => rfl
      | block | classBody _ | namespaceRoot _ | continuation | globalRoot _ => rfl

/-- A function is an entry at the path of the scope that declares it; a class keeps
its methods. -/
theorem declareFunction (catalogued : Catalogued root registry catalogue)
    (found : catalogue.place? id = some place) (name : String) (node : ν) :
    ∃ entry after, Scopes.declareFunction id name node registry = .ok entry after ∧
      entry = catalogue.places.length ∧
      Catalogued root after (catalogue.declareFunction place name node) := by
  obtain ⟨space, spaceEq, placed⟩ := catalogued.namespaceOf found
  obtain ⟨⟨title, parent, bindings, body⟩, present⟩ := catalogued.exists_scope found
  have isClass := catalogued.isClass_iff found present
  have outside (plain : place.isClass = false) : ∃ entry after, (do
        let space ← ask fun current => current.namespaceOf id
        addFunction space name node
        Scopes.openFunction name (some id)) registry = .ok entry after ∧
      entry = catalogue.places.length ∧
      Catalogued root after (catalogue.declareFunction place name node) := by
    obtain ⟨after, opened, later⟩ :=
      (catalogued.list placed .function (Text.lower name) node).openFunction found name
    refine ⟨_, after, bind_eq_ok.2 ⟨space, registry, ask_eq_ok.2 ⟨spaceEq, rfl⟩, ?_⟩, rfl, ?_⟩
    · exact bind_eq_ok.2 ⟨⟨⟩, _, modify_eq_ok.2 rfl, opened⟩
    · rw [Catalogue.declareFunction, plain]
      exact later
  rw [Scopes.declareFunction, run_get_bind]
  simp only [present]
  cases body with
  | classBody members =>
      obtain ⟨after, opened, later⟩ :=
        (catalogued.listMember id (fun members => { members with
          methods := members.methods.insert (Text.lower name) node }) fun _ => rfl).openFunction
            found (title ++ "::" ++ name)
      refine ⟨_, after, bind_eq_ok.2 ⟨⟨⟩, _, modify_eq_ok.2 rfl, opened⟩, rfl, ?_⟩
      rw [Catalogue.declareFunction, isClass]
      exact later
  | block | functionEntry | namespaceRoot _ | continuation | globalRoot _ => exact outside isClass

/-- A class is an entry at the path of the scope that declares it. -/
theorem declareClass (catalogued : Catalogued root registry catalogue)
    (found : catalogue.place? id = some place) (name : String) (node : ν) :
    ∃ inner after, Scopes.declareClass id name node registry = .ok inner after ∧
      inner = catalogue.places.length ∧
      Catalogued root after (catalogue.declareClass place name node) := by
  obtain ⟨space, spaceEq, placed⟩ := catalogued.namespaceOf found
  have listed := catalogued.list placed .classLike (Text.lower name) node
  obtain ⟨scope, present⟩ := listed.exists_scope found
  have rooted := listed.rooted.openScope ⟨name, some id, ∅, .classBody ∅⟩ rfl
    (Registry.kind?_of_scope present) ⟨rfl, nofun, nofun⟩ rfl
  have later := listed.push rooted.rooted rfl found rfl fun members same => by cases same; rfl
  refine ⟨_, _, bind_eq_ok.2 ⟨space, registry, ask_eq_ok.2 ⟨spaceEq, rfl⟩, ?_⟩, rfl, later⟩
  refine bind_eq_ok.2 ⟨⟨⟩, _, modify_eq_ok.2 rfl, ?_⟩
  exact congrArg (EStateM.Result.ok · _) listed.size.symm

/-- A constant is an entry at the path of the scope that declares it; a class keeps
its constants. -/
theorem declareConstant (catalogued : Catalogued root registry catalogue)
    (found : catalogue.place? id = some place) (name : String) (node : ν) :
    ∃ after, Scopes.declareConstant id name node registry = .ok ⟨⟩ after ∧
      Catalogued root after (catalogue.declareConstant id place name node) := by
  obtain ⟨space, spaceEq, placed⟩ := catalogued.namespaceOf found
  obtain ⟨⟨title, parent, bindings, body⟩, present⟩ := catalogued.exists_scope found
  have isClass := catalogued.isClass_iff found present
  rw [Scopes.declareConstant, Catalogue.declareConstant, run_get_bind]
  simp only [present]
  cases body with
  | classBody members =>
      rw [show place.isClass = true from isClass, if_pos rfl]
      exact ⟨_, modify_eq_ok.2 rfl, catalogued.listOwn found isClass name node⟩
  | block | functionEntry | namespaceRoot _ | continuation | globalRoot _ =>
      rw [show place.isClass = false from isClass, if_neg Bool.false_ne_true]
      refine ⟨_, bind_eq_ok.2 ⟨space, registry, ask_eq_ok.2 ⟨spaceEq, rfl⟩, modify_eq_ok.2 rfl⟩, ?_⟩
      exact catalogued.list placed .constant name node

/-- A property is no matter of the catalogue. -/
theorem declareProperty (catalogued : Catalogued root registry catalogue) (id : ScopeId)
    (name : String) (node : ν) :
    Ends (Scopes.declareProperty id name node registry)
      (fun _ after => Catalogued root after catalogue) (fun _ after => after = registry) := by
  unfold Scopes.declareProperty
  cases asked : registry.membersOf id with
  | ok members =>
      refine Ends.bind_ok (ask_eq_ok.2 ⟨asked, rfl⟩) ?_
      exact catalogued.listMember id _ fun _ => rfl
  | error fault =>
      show Ends (EStateM.bind _ _ registry) _ _
      unfold EStateM.bind ask
      simp only [asked]
      rfl

end Catalogued

end PhpTaint.Scopes
