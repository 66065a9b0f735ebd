import PhpTaint.Proofs.Scopes.Catalogue

/-!
# Namespaces by path

Entering a namespace by a name is adding its path to the catalogue, segment by
segment, and what a name denotes is one entry of the catalogue: the path of the
scope that asks, extended by the segments of the name, or those segments alone
for an absolute name. Only a function or a constant of a single segment is looked
for a second time, at the empty path.
-/

namespace PhpTaint.Scopes

open Outcome

variable {ν : Type} {root : ScopeId} {registry : Registry ν} {catalogue : Catalogue ν}

/-- The registry after a namespace was opened inside another one. -/
def Registry.openSpace (registry : Registry ν) (id : ScopeId) (title key : String) : Registry ν :=
  (registry.push ⟨title, some id, ∅, .namespaceRoot ∅⟩).changeSymbols id fun symbols =>
    { symbols with namespaces := symbols.namespaces.insert key registry.scopes.size }

namespace Registry

variable (registry : Registry ν) (id : ScopeId) (title key : String)

/-- The new scope is a namespace, and the others keep their kinds. -/
theorem kind?_openSpace (other : ScopeId) :
    (registry.openSpace id title key).kind? other =
      if other = registry.scopes.size then some (.namespaceRoot ∅) else registry.kind? other := by
  rw [openSpace, kind?_updateScope _ _ _ fun _ => Body.outline_updateSymbols _ _, kind?_push]
  rfl

/-- The new namespace lies in the one that it was opened in. -/
theorem parent?_openSpace (other : ScopeId) :
    (registry.openSpace id title key).parent? other =
      if other = registry.scopes.size then some id else registry.parent? other := by
  rw [openSpace, parent?_updateScope, parent?_push]
  exact fun _ => rfl

/-- Opening a namespace declares no constant. -/
theorem ownConstant?_openSpace (other : ScopeId) (name : String) :
    (registry.openSpace id title key).ownConstant? other name =
      registry.ownConstant? other name := by
  have tables : (registry.openSpace id title key).members? other = registry.members? other := by
    rw [openSpace, members?_updateScope _ _ _ fun scope => by cases scope.body <;> rfl,
      members?_push]
    split
    · rename_i new
      rw [members?, scope?, new, Array.getElem?_eq_none (Nat.le_refl _)]
      rfl
    · rfl
  rw [ownConstant?, tables]
  rfl

end Registry

namespace Catalogued

/-- The outer namespace lists the new one, and the other symbols stay. -/
theorem symbolsOf_openSpace (catalogued : Catalogued root registry catalogue) {id : ScopeId}
    {path : Path} (found : catalogue.place? id = some (.space path)) (title key : String)
    (other : ScopeId) :
    (registry.openSpace id title key).symbolsOf other =
      if other = id then { registry.symbolsOf id with
        namespaces := (registry.symbolsOf id).namespaces.insert key registry.scopes.size }
      else registry.symbolsOf other := by
  obtain ⟨kind, kindFound, owns, -⟩ := catalogued.kind found
  have old := catalogued.ne_size found
  have present : (registry.push ⟨title, some id, ∅, .namespaceRoot ∅⟩).kind? id = some kind := by
    rw [Registry.kind?_push, if_neg old, kindFound]
  rw [Registry.openSpace, Registry.symbolsOf_updateSymbols _ present owns.symm,
    Registry.symbolsOf_push, if_neg old, Registry.symbolsOf_push]
  split
  · rfl
  · split
    · rename_i new
      rw [new, Registry.symbolsOf, Registry.scope?, Array.getElem?_eq_none (Nat.le_refl _)]
      rfl
    · rfl

/-- The new namespace is found under its key in the outer one. -/
theorem space?_openSpace (catalogued : Catalogued root registry catalogue) {id : ScopeId}
    {path : Path} (found : catalogue.place? id = some (.space path)) (title key : String)
    (other : ScopeId) (wanted : String) :
    (registry.openSpace id title key).space? other wanted =
      if other = id ∧ wanted = key then some registry.scopes.size
      else registry.space? other wanted := by
  rw [Registry.space?, catalogued.symbolsOf_openSpace found, Registry.space?]
  by_cases same : other = id
  · subst same
    simp [Table.find?_insert]
  · simp [same]

/-- Opening a namespace declares no function, class or constant. -/
theorem symbol?_openSpace (catalogued : Catalogued root registry catalogue) {id : ScopeId}
    {path : Path} (found : catalogue.place? id = some (.space path)) (title key : String)
    (kind : SymbolKind) (other : ScopeId) (wanted : String) :
    (registry.openSpace id title key).symbol? kind other wanted =
      registry.symbol? kind other wanted := by
  rw [Registry.symbol?, catalogued.symbolsOf_openSpace found, Registry.symbol?]
  by_cases same : other = id
  · subst same
    cases kind <;> simp [SymbolKind.table]
  · simp [same]

/-- A path that is not listed in the namespace around it has no namespace. -/
theorem vacant (catalogued : Catalogued root registry catalogue) {id : ScopeId} {path : Path}
    {key : String} (found : catalogue.place? id = some (.space path))
    (missing : registry.space? id key = none) (other : ScopeId) :
    catalogue.place? other ≠ some (.space (path ++ [key])) := by
  intro taken
  rw [(catalogued.nested id path key other found).2 taken] at missing
  cases missing

/-- What was not opened lists nothing. -/
theorem symbolsOf_size (registry : Registry ν) :
    registry.symbolsOf registry.scopes.size = ∅ := by
  rw [Registry.symbolsOf, Registry.scope?, Array.getElem?_eq_none (Nat.le_refl _)]

/-- The namespaces of a catalogue to which one was added. -/
theorem space_add_iff (catalogued : Catalogued root registry catalogue) {added within : Path}
    {other : ScopeId} :
    (catalogue.add (.space added)).place? other = some (.space within) ↔
      catalogue.place? other = some (.space within) ∨
        other = registry.scopes.size ∧ added = within := by
  rw [Catalogue.place?_add, catalogued.size]
  simp [Place.space]

/-- A rooted registry stays so with one more namespace. -/
theorem rooted_openSpace (catalogued : Catalogued root registry catalogue) {id : ScopeId}
    {path : Path} (found : catalogue.place? id = some (.space path)) (title key : String) :
    Rooted root (registry.openSpace id title key) := by
  obtain ⟨kind, kindFound, owns, -⟩ := catalogued.kind found
  have opened := catalogued.rooted.openScope ⟨title, some id, ∅, .namespaceRoot ∅⟩ rfl kindFound
    ⟨rfl, nofun, fun _ => owns.symm⟩ rfl
  have fresh : (registry.push ⟨title, some id, ∅, .namespaceRoot ∅⟩).kind? registry.scopes.size =
      some (.namespaceRoot ∅) := by
    rw [Registry.kind?_push, if_pos rfl]
    rfl
  exact (opened.rooted.listNamespace id key fresh rfl).rooted

/-- What a namespace lists as nested in it, after another one was opened: the new one
is listed where it was opened, and nothing is nested in the new one. -/
theorem nested_openSpace (catalogued : Catalogued root registry catalogue) {id : ScopeId}
    {path : Path} {key : String} (found : catalogue.place? id = some (.space path))
    (missing : registry.space? id key = none) (title : String) {other : ScopeId} {outer : Path}
    (last : String) (inner : ScopeId)
    (placeFound : (catalogue.add (.space (path ++ [key]))).place? other = some (.space outer)) :
    (registry.openSpace id title key).space? other last = some inner ↔
      (catalogue.add (.space (path ++ [key]))).place? inner = some (.space (outer ++ [last])) := by
  have vacant := catalogued.vacant found missing
  rw [catalogued.space?_openSpace found, catalogued.space_add_iff]
  rcases catalogued.space_add_iff.1 placeFound with old | ⟨rfl, rfl⟩
  · have listed := catalogued.nested other outer last inner old
    split
    · rename_i same
      obtain ⟨rfl, rfl⟩ := same
      obtain rfl : path = outer := congrArg Place.path (Option.some.inj (found.symm.trans old))
      simp [vacant inner, eq_comm]
    · rename_i different
      have paths : path ++ [key] ≠ outer ++ [last] := by
        intro same
        obtain ⟨rfl, keys⟩ := List.append_inj' same rfl
        exact different ⟨catalogued.unique other id path old found, (List.cons.inj keys).1.symm⟩
      rw [listed]
      simp [paths]
  · -- no path leads beyond the new namespace
    rw [if_neg fun same => catalogued.ne_size found same.1.symm, Registry.space?, symbolsOf_size]
    constructor
    · intro listed
      cases listed
    · rintro (old | ⟨-, same⟩)
      · obtain ⟨around, aroundFound⟩ := catalogued.founded inner _ last old
        exact absurd aroundFound (vacant around)
      · have lengths := congrArg List.length same
        simp at lengths

/-- A new namespace declares nothing. -/
theorem entries_openSpace (catalogued : Catalogued root registry catalogue) {id : ScopeId}
    {path : Path} (found : catalogue.place? id = some (.space path)) (title key : String)
    (kind : SymbolKind) (outer : Path) (last : String) (node : ν) :
    catalogue.entries.find? (kind, outer, last) = some node ↔
      ∃ other, (catalogue.add (.space (path ++ [key]))).place? other = some (.space outer) ∧
        (registry.openSpace id title key).symbol? kind other last = some node := by
  rw [catalogued.entries]
  simp only [catalogued.symbol?_openSpace found, catalogued.space_add_iff]
  constructor
  · rintro ⟨other, placeFound, listed⟩
    exact ⟨other, Or.inl placeFound, listed⟩
  · rintro ⟨other, placeFound | ⟨rfl, -⟩, listed⟩
    · exact ⟨other, placeFound, listed⟩
    · rw [Registry.symbol?, symbolsOf_size] at listed
      cases kind <;> cases listed

/-- Opening a namespace at a path that has none. -/
theorem openSpace (catalogued : Catalogued root registry catalogue) {id : ScopeId} {path : Path}
    {key : String} (found : catalogue.place? id = some (.space path))
    (missing : registry.space? id key = none) (title : String) :
    Catalogued root (registry.openSpace id title key)
      (catalogue.add (.space (path ++ [key]))) where
  rooted := catalogued.rooted_openSpace found title key
  size := by
    rw [Registry.openSpace, Registry.size_updateScope, Registry.size_push, ← catalogued.size]
    exact List.length_append
  global := catalogued.space_add_iff.2 (Or.inl catalogued.global)
  places := catalogued.places_add (registry.kind?_openSpace id title key) rfl rfl
  inherited := catalogued.inherited_add found (registry.parent?_openSpace id title key) nofun
  unique left right shared leftFound rightFound := by
    have vacant := catalogued.vacant found missing
    rcases catalogued.space_add_iff.1 leftFound with leftOld | ⟨rfl, rfl⟩ <;>
      rcases catalogued.space_add_iff.1 rightFound with rightOld | ⟨rfl, same⟩
    · exact catalogued.unique left right shared leftOld rightOld
    · exact absurd (same ▸ leftOld) (vacant left)
    · exact absurd rightOld (vacant right)
    · rfl
  founded other outer last placeFound := by
    rcases catalogued.space_add_iff.1 placeFound with old | ⟨-, same⟩
    · obtain ⟨around, aroundFound⟩ := catalogued.founded other outer last old
      exact ⟨around, catalogued.space_add_iff.2 (Or.inl aroundFound)⟩
    · obtain ⟨rfl, -⟩ := List.append_inj' same rfl
      exact ⟨id, catalogued.space_add_iff.2 (Or.inl found)⟩
  nested _ _ last inner placeFound :=
    catalogued.nested_openSpace found missing title last inner placeFound
  entries := catalogued.entries_openSpace found title key
  own other name := by
    rw [Registry.ownConstant?_openSpace]
    exact catalogued.own other name

/-- A namespace that is not listed is opened. -/
theorem enterNamespace_missing {id : ScopeId} {outer : Scope ν} {name : String}
    (present : registry.scope? id = some outer)
    (missing : registry.space? id (Text.lower name) = none) :
    Scopes.enterNamespace id name registry = .ok registry.scopes.size
      ((registry.openSpace id (nestedName outer name) (Text.lower name)).write
        ⟨.debug, .scopes, "Created namespace " ++ nestedName outer name⟩) := by
  refine bind_eq_ok.2 ⟨registry, registry, get_eq_ok.2 ⟨rfl, rfl⟩, ?_⟩
  rw [Registry.space?] at missing
  simp only [missing, present]
  rfl

/-- The namespace of the given name inside another one, opened if there is none,
is the one at the path that is one segment longer. -/
theorem enterNamespace (catalogued : Catalogued root registry catalogue) {id : ScopeId}
    {path : Path} (found : catalogue.place? id = some (.space path)) (name : String) :
    ∃ inner after, Scopes.enterNamespace id name registry = .ok inner after ∧
      Catalogued root after (catalogue.addSpace (path ++ [Text.lower name])) ∧
      (catalogue.addSpace (path ++ [Text.lower name])).place? inner =
        some (.space (path ++ [Text.lower name])) := by
  unfold Catalogue.addSpace
  cases known : registry.space? id (Text.lower name) with
  | some inner =>
      have placed := (catalogued.nested id path _ inner found).1 known
      rw [catalogued.spaceAt?_eq_some.2 placed]
      refine ⟨inner, registry, ?_, catalogued, placed⟩
      refine bind_eq_ok.2 ⟨registry, registry, get_eq_ok.2 ⟨rfl, rfl⟩, ?_⟩
      rw [Registry.space?] at known
      rw [known]
      rfl
  | none =>
      have absent : catalogue.spaceAt? (path ++ [Text.lower name]) = none := by
        refine Option.eq_none_iff_forall_ne_some.2 fun other listed => ?_
        exact catalogued.vacant found known other (catalogued.spaceAt?_eq_some.1 listed)
      have opened (title : String) := catalogued.openSpace found known title
      rw [absent, if_neg (by simp)]
      obtain ⟨outer, present⟩ := Registry.exists_scope (catalogued.lt_size found)
      refine ⟨_, _, enterNamespace_missing present known, (opened _).of_scopes_eq rfl, ?_⟩
      exact (Catalogue.place?_add ..).2 (Or.inr ⟨catalogued.size.symm, rfl⟩)

/-- A name leads to the namespace at the path that its segments continue; it may be
refused if it is not proper. -/
theorem enterNamespaces (catalogued : Catalogued root registry catalogue) {id : ScopeId}
    {path : Path} (found : catalogue.place? id = some (.space path)) (name : List Char) :
    Ends (Scopes.enterNamespaces id name registry)
      (fun inner after => Catalogued root after (catalogue.enter path (segmentsOf name)) ∧
        (catalogue.enter path (segmentsOf name)).place? inner =
          some (.space (path ++ (segmentsOf name).map Text.lower)))
      (fun _ _ => isProper name = false) := by
  induction size : name.length using Nat.strongRecOn
    generalizing registry catalogue id path name with
  | ind measure inductionHypothesis =>
      cases absolute : isAbsolute name with
      | true =>
          rw [enterNamespaces_absolute id absolute]
          apply Bool.eq_false_iff.2
          intro proper
          rw [isAbsolute_of_isProper proper] at absolute
          cases absolute
      | false =>
          cases single : isUnqualified name with
          | true =>
              obtain ⟨inner, after, entered, reached⟩ :=
                catalogued.enterNamespace found (String.ofList name)
              rw [segmentsOf_single single, enterNamespaces_single id absolute single, entered]
              exact reached
          | false =>
              obtain ⟨inner, middle, first, entered, placed⟩ :=
                catalogued.enterNamespace found (String.ofList (headSegment name))
              have rest := inductionHypothesis _ (size ▸ length_tailSegments_lt single) entered
                placed (tailSegments name) rfl
              rw [segmentsOf_qualified single, enterNamespaces_qualified id absolute single]
              apply Ends.bind_ok first
              cases outcome : Scopes.enterNamespaces inner (tailSegments name) middle with
              | ok last after =>
                  rw [outcome] at rest
                  refine ⟨rest.1, ?_⟩
                  rw [Catalogue.enter, rest.2, List.append_assoc]
                  rfl
              | error fault after =>
                  rw [outcome] at rest
                  apply Bool.eq_false_iff.2
                  intro proper
                  exact Bool.eq_false_iff.1 rest (isProper_tail proper single)

/-- The namespace of a scope is the one at its path. -/
theorem namespaceOf (catalogued : Catalogued root registry catalogue) {id : ScopeId}
    {place : Place} (found : catalogue.place? id = some place) :
    ∃ space, registry.namespaceOf id = .ok space ∧
      catalogue.place? space = some (.space place.path) := by
  have isSpace {id : ScopeId} {scope : Scope ν} {place : Place}
      (present : registry.scope? id = some scope) (placed : catalogue.place? id = some place) :
      place.isSpace = scope.body.ownsSymbols := by
    obtain ⟨kind, kindFound, isSpace, -⟩ := catalogued.kind placed
    rw [Registry.kind?_of_scope present, Option.some.injEq] at kindFound
    rw [isSpace, ← kindFound, Body.ownsSymbols_outline]
  obtain ⟨space, answered, belongs⟩ := catalogued.rooted.namespaceOf_induction
    (fun id space => forall place, catalogue.place? id = some place ->
      catalogue.place? space = some (.space place.path))
    (fun id scope present owns place placed => by
      rw [placed, ← catalogued.eq_space placed ((isSpace present placed).trans owns)])
    (fun id scope parent space present plain parentEq belongs place placed => by
      have around : registry.parent? id = some parent := by
        rw [Registry.parent?, present]
        exact parentEq
      obtain ⟨outer, outerPlaced, same⟩ := catalogued.inherited id place parent placed
        ((isSpace present placed).trans plain) around
      rw [belongs outer outerPlaced, same])
    (catalogued.lt_size found)
  exact ⟨space, answered, belongs place found⟩

/-- Declaring a namespace anywhere is entering its path. -/
theorem declareNamespace_ends (catalogued : Catalogued root registry catalogue) {id : ScopeId}
    {place : Place} (found : catalogue.place? id = some place) (name : String) :
    Ends (Scopes.declareNamespace id name registry)
      (fun inner after =>
        Catalogued root after (catalogue.enter place.path (segmentsOf name.toList)) ∧
        (catalogue.enter place.path (segmentsOf name.toList)).place? inner =
          some (.space (place.path ++ (segmentsOf name.toList).map Text.lower)))
      (fun _ _ => isProper name.toList = false) := by
  obtain ⟨space, spaceEq, placed⟩ := catalogued.namespaceOf found
  apply Ends.bind_ok (ask_eq_ok.2 ⟨spaceEq, rfl⟩)
  exact catalogued.enterNamespaces placed name.toList

/-- A proper name is not refused. -/
theorem declareNamespace (catalogued : Catalogued root registry catalogue) {id : ScopeId}
    {place : Place} (found : catalogue.place? id = some place) {name : String}
    (proper : isProper name.toList = true) :
    ∃ inner after, Scopes.declareNamespace id name registry = .ok inner after ∧
      Catalogued root after (catalogue.enter place.path (segmentsOf name.toList)) ∧
      (catalogue.enter place.path (segmentsOf name.toList)).place? inner =
        some (.space (place.path ++ (segmentsOf name.toList).map Text.lower)) := by
  have ends := catalogued.declareNamespace_ends found name
  cases outcome : Scopes.declareNamespace id name registry with
  | ok inner after =>
      rw [outcome] at ends
      exact ⟨inner, after, rfl, ends⟩
  | error fault after =>
      rw [outcome] at ends
      exact absurd proper (Bool.eq_false_iff.1 ends)

end Catalogued

end PhpTaint.Scopes
