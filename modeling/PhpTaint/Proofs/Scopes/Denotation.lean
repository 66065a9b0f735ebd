import Mathlib.Data.List.Induction
import PhpTaint.Proofs.Scopes.Spaces

/-!
# What names denote

In a catalogue a name denotes at most one entry: that at the path of the asking
scope, extended by all segments but the last, or at those segments alone for an
absolute name. A single segment may be looked for once more at the empty path.
The lookups of the registry find this entry, and where there is none they say
that the name is unbound.
-/

namespace PhpTaint.Scopes

open Outcome

variable {ν : Type}

/-- A lookup answers with what there is to find, and says that a name is unbound
when there is nothing. -/
def Finds {α : Type} (answer : Except Fault α) : Option α -> Prop
  | some value => answer = .ok value
  | none => ∃ name scope, answer = .error (.unbound name scope)

/-- What is known to be there is found. -/
theorem Finds.eq_ok {α : Type} {answer : Except Fault α} {found : Option α} {value : α}
    (finds : Finds answer found) (known : found = some value) : answer = .ok value := by
  subst known
  exact finds

/-- A nested namespace is looked for in the table of the outer one. -/
theorem Registry.nestedNamespace_finds (registry : Registry ν) (id : ScopeId) (name : String) :
    Finds (registry.nestedNamespace id name) (registry.space? id (Text.lower name)) := by
  rw [nestedNamespace, space?]
  cases (registry.symbolsOf id).namespaces.find? (Text.lower name) with
  | some inner => rfl
  | none => exact ⟨name, _, rfl⟩

/-- A single segment is looked for in the namespace, and then perhaps globally. -/
theorem Rooted.localSymbol_finds {root : ScopeId} {registry : Registry ν}
    (rooted : Rooted root registry) {id : ScopeId} (bound : id < registry.scopes.size)
    (kind : SymbolKind) (fallback : Bool) (name : String) :
    Finds (registry.localSymbol kind fallback id name)
      ((registry.symbol? kind id (kind.keyOf name)).or
        (if fallback then registry.symbol? kind root (kind.keyOf name) else none)) := by
  rw [Registry.localSymbol, rooted.globalOf_eq bound]
  cases here : registry.symbol? kind id (kind.keyOf name) with
  | some node =>
      rw [Registry.symbol?] at here
      simp [Finds, here]
  | none =>
      rw [Registry.symbol?] at here
      rw [here, Option.none_or]
      show Finds (if _ then _ else _) _
      by_cases again : fallback = true ∧ id ≠ root
      · obtain ⟨rfl, outside⟩ := again
        simp only [Bool.true_and, bne_iff_ne, ne_eq, outside, not_false_eq_true, if_true]
        cases globally : registry.symbol? kind root (kind.keyOf name) with
        | some node =>
            rw [Registry.symbol?] at globally
            rw [globally]
            rfl
        | none =>
            rw [Registry.symbol?] at globally
            rw [globally]
            exact ⟨name, _, rfl⟩
      · -- the global namespace does not ask itself a second time
        have stops : (fallback && id != root) = false := by
          cases fallback <;> simp_all
        have nothing : (if fallback then registry.symbol? kind root (kind.keyOf name) else none) =
            none := by
          cases fallback with
          | false => rfl
          | true =>
              obtain rfl : id = root := by simpa using again
              exact here
        rw [nothing, stops, if_neg Bool.false_ne_true]
        exact ⟨name, _, rfl⟩

/-- The declaration that segments lead to from a path. -/
def Catalogue.entryAt (catalogue : Catalogue ν) (kind : SymbolKind) (path : Path)
    (segments : List String) : Option ν :=
  catalogue.entries.find?
    (kind, path ++ segments.dropLast.map Text.lower, kind.keyOf (segments.getLastD ""))

/-- A single segment denotes the entry of that key at the path. -/
theorem Catalogue.entryAt_single (catalogue : Catalogue ν) (kind : SymbolKind) (path : Path)
    (segment : String) :
    catalogue.entryAt kind path [segment] =
      catalogue.entries.find? (kind, path, kind.keyOf segment) := by
  simp [entryAt]

/-- A qualified name denotes what its rest denotes one path further in. -/
theorem Catalogue.entryAt_cons (catalogue : Catalogue ν) (kind : SymbolKind) (path : Path)
    (segment : String) {rest : List String} (more : rest ≠ []) :
    catalogue.entryAt kind path (segment :: rest) =
      catalogue.entryAt kind (path ++ [Text.lower segment]) rest := by
  obtain ⟨next, others, rfl⟩ := List.exists_cons_of_ne_nil more
  simp [entryAt]

/-- Whether all segments of a name, which may be absolute, stand for themselves. -/
def isWellFormed (name : List Char) : Bool :=
  isProper (if isAbsolute name then name.tail else name)

/-- The declaration that a name denotes from a path. -/
def Catalogue.denoted (catalogue : Catalogue ν) (kind : SymbolKind) (path : Path)
    (name : List Char) : Option ν :=
  if isAbsolute name then catalogue.entryAt kind [] (segmentsOf name.tail)
  else (catalogue.entryAt kind path (segmentsOf name)).or
    (if isUnqualified name && kind.fallsBack then catalogue.entryAt kind [] (segmentsOf name)
      else none)

/-- The namespace that a name denotes from a path. -/
def Catalogue.spaceDenoted (catalogue : Catalogue ν) (path : Path) (name : List Char) :
    Option ScopeId :=
  if isAbsolute name then catalogue.spaceAt? ((segmentsOf name.tail).map Text.lower)
  else catalogue.spaceAt? (path ++ (segmentsOf name).map Text.lower)

namespace Catalogued

variable {root : ScopeId} {registry : Registry ν} {catalogue : Catalogue ν}

/-- The namespaces on the way to a namespace are there. -/
theorem exists_outer (catalogued : Catalogued root registry catalogue) {id : ScopeId}
    {path rest : Path} (found : catalogue.place? id = some (.space (path ++ rest))) :
    ∃ outer, catalogue.place? outer = some (.space path) := by
  induction rest using List.reverseRecOn generalizing id with
  | nil => exact ⟨id, by rwa [List.append_nil] at found⟩
  | append_singleton rest last inductionHypothesis =>
      rw [← List.append_assoc] at found
      obtain ⟨outer, outerFound⟩ := catalogued.founded id _ _ found
      exact inductionHypothesis outerFound

/-- Nothing is declared below a path that is no namespace. -/
theorem spaceAt?_append_eq_none (catalogued : Catalogued root registry catalogue) {path : Path}
    (absent : catalogue.spaceAt? path = none) (rest : Path) :
    catalogue.spaceAt? (path ++ rest) = none := by
  refine Option.eq_none_iff_forall_ne_some.2 fun id found => ?_
  obtain ⟨outer, outerFound⟩ := catalogued.exists_outer (catalogued.spaceAt?_eq_some.1 found)
  rw [catalogued.spaceAt?_eq_some.2 outerFound] at absent
  cases absent

/-- Nothing is declared at a path without a namespace. -/
theorem entries_eq_none (catalogued : Catalogued root registry catalogue) {path : Path}
    (absent : catalogue.spaceAt? path = none) (kind : SymbolKind) (key : String) :
    catalogue.entries.find? (kind, path, key) = none := by
  refine Option.eq_none_iff_forall_ne_some.2 fun node listed => ?_
  obtain ⟨id, found, -⟩ := (catalogued.entries kind path key node).1 listed
  rw [catalogued.spaceAt?_eq_some.2 found] at absent
  cases absent

/-- The entries at the path of a namespace are those of its tables. -/
theorem entries_eq (catalogued : Catalogued root registry catalogue) {id : ScopeId} {path : Path}
    (found : catalogue.place? id = some (.space path)) (kind : SymbolKind) (key : String) :
    catalogue.entries.find? (kind, path, key) = registry.symbol? kind id key := by
  refine Option.ext fun node => ?_
  rw [catalogued.entries kind path key node]
  constructor
  · rintro ⟨other, otherFound, listed⟩
    rwa [catalogued.unique other id path otherFound found] at listed
  · exact fun listed => ⟨id, found, listed⟩

/-- The namespaces one path further in are the nested ones. -/
theorem spaceAt?_cons (catalogued : Catalogued root registry catalogue) {id : ScopeId}
    {path : Path} (found : catalogue.place? id = some (.space path)) (key : String) :
    catalogue.spaceAt? (path ++ [key]) = registry.space? id key := by
  refine Option.ext fun inner => ?_
  rw [catalogued.spaceAt?_eq_some, catalogued.nested id path key inner found]

/-- A nested namespace is found exactly if its path is one of a namespace. -/
theorem nestedNamespace_finds (catalogued : Catalogued root registry catalogue) {id : ScopeId}
    {path : Path} (found : catalogue.place? id = some (.space path)) (name : String) :
    Finds (registry.nestedNamespace id name)
      (catalogue.spaceAt? (path ++ [Text.lower name])) := by
  rw [catalogued.spaceAt?_cons found]
  exact registry.nestedNamespace_finds id name

/-- A proper name leads to the namespace at the path that its segments continue. -/
theorem namespaceAt_finds (catalogued : Catalogued root registry catalogue) {id : ScopeId}
    {path : Path} (found : catalogue.place? id = some (.space path)) {name : List Char}
    (proper : isProper name = true) :
    Finds (registry.namespaceAt id name)
      (catalogue.spaceAt? (path ++ (segmentsOf name).map Text.lower)) := by
  induction size : name.length using Nat.strongRecOn generalizing id path name with
  | ind measure inductionHypothesis =>
      cases single : isUnqualified name with
      | true =>
          rw [segmentsOf_single single, registry.namespaceAt_single id proper single]
          exact catalogued.nestedNamespace_finds found _
      | false =>
          have first := catalogued.nestedNamespace_finds found (String.ofList (headSegment name))
          rw [segmentsOf_qualified single, registry.namespaceAt_qualified id proper single,
            List.map_cons, List.append_cons]
          cases entered : catalogue.spaceAt? (path ++ [Text.lower (String.ofList
            (headSegment name))]) with
          | some inner =>
              rw [entered] at first
              rw [show registry.nestedNamespace id _ = .ok inner from first]
              exact inductionHypothesis _ (size ▸ length_tailSegments_lt single)
                (catalogued.spaceAt?_eq_some.1 entered) (isProper_tail proper single) rfl
          | none =>
              rw [entered] at first
              obtain ⟨wanted, scope, unbound⟩ := first
              rw [catalogued.spaceAt?_append_eq_none entered, unbound]
              exact ⟨wanted, scope, rfl⟩

/-- A single segment is looked for in the namespace, and then perhaps globally. -/
theorem localSymbol_finds (catalogued : Catalogued root registry catalogue) {id : ScopeId}
    {path : Path} (found : catalogue.place? id = some (.space path)) (kind : SymbolKind)
    (fallback : Bool) (name : String) :
    Finds (registry.localSymbol kind fallback id name)
      ((catalogue.entryAt kind path [name]).or
        (if fallback then catalogue.entryAt kind [] [name] else none)) := by
  rw [catalogue.entryAt_single, catalogue.entryAt_single, catalogued.entries_eq found,
    catalogued.entries_eq catalogued.global]
  exact catalogued.rooted.localSymbol_finds (catalogued.lt_size found) kind fallback name

/-- A proper name that is not looked for globally denotes the entry that its
segments lead to. -/
theorem symbolAt_finds (catalogued : Catalogued root registry catalogue) {id : ScopeId}
    {path : Path} (found : catalogue.place? id = some (.space path)) (kind : SymbolKind)
    {name : List Char} (proper : isProper name = true) :
    Finds (registry.symbolAt kind false id name)
      (catalogue.entryAt kind path (segmentsOf name)) := by
  induction size : name.length using Nat.strongRecOn generalizing id path name with
  | ind measure inductionHypothesis =>
      cases single : isUnqualified name with
      | true =>
          have local' := catalogued.localSymbol_finds found kind false (String.ofList name)
          rw [if_neg Bool.false_ne_true, Option.or_none] at local'
          rw [segmentsOf_single single, registry.symbolAt_single id kind false proper single]
          exact local'
      | false =>
          have first := catalogued.nestedNamespace_finds found (String.ofList (headSegment name))
          rw [segmentsOf_qualified single,
            registry.symbolAt_qualified id kind false proper single,
            catalogue.entryAt_cons _ _ _ (segmentsOf_ne_nil _)]
          cases entered : catalogue.spaceAt? (path ++ [Text.lower (String.ofList
            (headSegment name))]) with
          | some inner =>
              rw [entered] at first
              rw [show registry.nestedNamespace id _ = .ok inner from first]
              exact inductionHypothesis _ (size ▸ length_tailSegments_lt single)
                (catalogued.spaceAt?_eq_some.1 entered) (isProper_tail proper single) rfl
          | none =>
              rw [entered] at first
              obtain ⟨wanted, scope, unbound⟩ := first
              have nothing : catalogue.entryAt kind
                  (path ++ [Text.lower (String.ofList (headSegment name))])
                  (segmentsOf (tailSegments name)) = none :=
                catalogued.entries_eq_none (catalogued.spaceAt?_append_eq_none entered _) kind _
              rw [nothing, unbound]
              exact ⟨wanted, scope, rfl⟩

/-- An absolute name begins with the separator. -/
theorem eq_cons_of_isAbsolute {name : List Char} (absolute : isAbsolute name = true) :
    name = separator :: name.tail := by
  cases name with
  | nil => cases absolute
  | cons char rest =>
      have same : char = separator := by simpa [isAbsolute] using absolute
      rw [same, List.tail_cons]

/-- A well-formed name leads every scope to the namespace that it denotes. -/
theorem resolveNamespace_finds (catalogued : Catalogued root registry catalogue) {id : ScopeId}
    {place : Place} (found : catalogue.place? id = some place) {name : String}
    (wellFormed : isWellFormed name.toList = true) :
    Finds (registry.resolveNamespace id (some name))
      (catalogue.spaceDenoted place.path name.toList) := by
  obtain ⟨space, spaceEq, placed⟩ := catalogued.namespaceOf found
  unfold Registry.resolveNamespace Catalogue.spaceDenoted
  rw [spaceEq]
  show Finds (registry.namespaceAt space name.toList) _
  unfold isWellFormed at wellFormed
  cases absolute : isAbsolute name.toList with
  | false =>
      rw [absolute, if_neg Bool.false_ne_true] at wellFormed
      exact catalogued.namespaceAt_finds placed wellFormed
  | true =>
      rw [absolute, if_pos rfl] at wellFormed
      rw [eq_cons_of_isAbsolute absolute, registry.namespaceAt_absolute space wellFormed,
        catalogued.rooted.globalOf_eq (catalogued.lt_size placed)]
      exact catalogued.namespaceAt_finds catalogued.global wellFormed

/-- A well-formed name finds from every scope the declaration that it denotes. -/
theorem resolveSymbol_finds (catalogued : Catalogued root registry catalogue) {id : ScopeId}
    {place : Place} (found : catalogue.place? id = some place) (kind : SymbolKind) {name : String}
    (wellFormed : isWellFormed name.toList = true) :
    Finds (registry.resolveSymbol kind id name)
      (catalogue.denoted kind place.path name.toList) := by
  obtain ⟨space, spaceEq, placed⟩ := catalogued.namespaceOf found
  unfold Registry.resolveSymbol Catalogue.denoted
  rw [spaceEq]
  show Finds (registry.symbolAt kind kind.fallsBack space name.toList) _
  unfold isWellFormed at wellFormed
  cases absolute : isAbsolute name.toList with
  | true =>
      rw [absolute, if_pos rfl] at wellFormed
      rw [eq_cons_of_isAbsolute absolute,
        registry.symbolAt_absolute space kind kind.fallsBack wellFormed,
        catalogued.rooted.globalOf_eq (catalogued.lt_size placed)]
      exact catalogued.symbolAt_finds catalogued.global kind wellFormed
  | false =>
      rw [absolute, if_neg Bool.false_ne_true] at wellFormed
      rw [if_neg Bool.false_ne_true]
      cases single : isUnqualified name.toList with
      | true =>
          rw [registry.symbolAt_single space kind _ wellFormed single, segmentsOf_single single,
            Bool.true_and]
          exact catalogued.localSymbol_finds placed kind kind.fallsBack _
      | false =>
          have relative := catalogued.symbolAt_finds placed kind wellFormed
          rw [registry.symbolAt_qualified space kind false wellFormed single] at relative
          rw [registry.symbolAt_qualified space kind _ wellFormed single, Bool.false_and,
            if_neg Bool.false_ne_true, Option.or_none]
          exact relative

end Catalogued

end PhpTaint.Scopes
