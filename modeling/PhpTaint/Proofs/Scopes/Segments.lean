import Mathlib.Data.List.TakeWhile
import PhpTaint.Proofs.Text.Case
import PhpTaint.Scopes.Declare

/-!
# Names as lists of segments

A name is proper when none of its segments is empty and none names the current
namespace. The lookups read a proper name segment by segment: the first one leads
to a nested namespace, the last one is what is looked for, and an absolute name
starts over at the global namespace.
-/

namespace PhpTaint.Scopes

/-- The segments of a name. -/
def segmentsOf (name : List Char) : List String :=
  if _single : isUnqualified name then [String.ofList name]
  else String.ofList (headSegment name) :: segmentsOf (tailSegments name)
termination_by name.length
decreasing_by exact length_tailSegments_lt (Bool.eq_false_iff.2 _single)

/-- Whether a segment stands for itself in a name. -/
def isProperSegment (segment : String) : Bool :=
  segment != "" && Text.lower segment != "namespace"

/-- Whether all segments of a name stand for themselves. -/
def isProper (name : List Char) : Bool := (segmentsOf name).all isProperSegment

variable {name : List Char}

/-- A name without a separator is its own segment. -/
theorem segmentsOf_single (single : isUnqualified name = true) :
    segmentsOf name = [String.ofList name] := by
  rw [segmentsOf, dif_pos single]

/-- A name with a separator has its first segment in front of the rest. -/
theorem segmentsOf_qualified (qualified : isUnqualified name = false) :
    segmentsOf name = String.ofList (headSegment name) :: segmentsOf (tailSegments name) := by
  rw [segmentsOf, dif_neg (Bool.eq_false_iff.1 qualified)]

/-- Every name has a segment, which may be empty. -/
theorem segmentsOf_ne_nil (name : List Char) : segmentsOf name ≠ [] := by
  rw [segmentsOf]
  split <;> exact List.cons_ne_nil _ _

theorem not_mem_of_isUnqualified (single : isUnqualified name = true) : separator ∉ name := by
  simpa [isUnqualified] using single

theorem not_mem_headSegment (name : List Char) : separator ∉ headSegment name := by
  intro member
  have passed := List.mem_takeWhile_imp member
  simp at passed

/-- A name with a separator is its first segment, the separator and the rest. -/
theorem eq_headSegment_append (qualified : isUnqualified name = false) :
    name = headSegment name ++ separator :: tailSegments name := by
  have found : separator ∈ name := by simpa [isUnqualified] using qualified
  have rest : name.dropWhile (· != separator) = separator :: tailSegments name := by
    unfold tailSegments
    cases dropped : name.dropWhile (· != separator) with
    | nil =>
        have passed := List.dropWhile_eq_nil_iff.1 dropped separator found
        simp at passed
    | cons char tail =>
        have stopped : (char != separator) = false := by
          have head := List.head?_dropWhile_not (· != separator) name
          rw [dropped] at head
          simpa using head
        have same : char = separator := by simpa using stopped
        rw [same]
        rfl
  calc
    name = name.takeWhile (· != separator) ++ name.dropWhile (· != separator) :=
      List.takeWhile_append_dropWhile.symm
    _ = headSegment name ++ separator :: tailSegments name := by rw [rest]; rfl

/-- The first segment ends at the first separator. -/
theorem headSegment_append {head tail : List Char} (single : separator ∉ head) :
    headSegment (head ++ separator :: tail) = head := by
  have passed : forall char, char ∈ head -> (char != separator) = true := by
    intro char member
    simp only [bne_iff_ne, ne_eq]
    rintro rfl
    exact single member
  rw [headSegment, List.takeWhile_append_of_pos passed]
  simp

/-- The first segment of a lowered name is the first segment, lowered. -/
theorem headSegment_lowerChars (qualified : isUnqualified name = false) :
    headSegment (Text.lowerChars name) = Text.lowerChars (headSegment name) := by
  have parts : Text.lowerChars name = Text.lowerChars (headSegment name) ++
      separator :: Text.lowerChars (tailSegments name) :=
    (congrArg Text.lowerChars (eq_headSegment_append qualified)).trans
      (Text.lowerChars_append_backslash _ _)
  rw [parts]
  exact headSegment_append fun member =>
    not_mem_headSegment name (Text.backslash_mem_of_mem_lowerAfter member)

/-- What follows the first separator of a proper name is proper. -/
theorem isProper_tail (proper : isProper name = true) (qualified : isUnqualified name = false) :
    isProper (tailSegments name) = true := by
  rw [isProper, segmentsOf_qualified qualified, List.all_cons, Bool.and_eq_true] at proper
  exact proper.2

/-- The first segment of a proper name stands for itself. -/
theorem isProper_head (proper : isProper name = true) (qualified : isUnqualified name = false) :
    isProperSegment (String.ofList (headSegment name)) = true := by
  rw [isProper, segmentsOf_qualified qualified, List.all_cons, Bool.and_eq_true] at proper
  exact proper.1

/-- A proper name of one segment stands for itself. -/
theorem isProper_single (proper : isProper name = true) (single : isUnqualified name = true) :
    isProperSegment (String.ofList name) = true := by
  rw [isProper, segmentsOf_single single, List.all_cons, Bool.and_eq_true] at proper
  exact proper.1

/-- A proper name does not begin with a separator. -/
theorem isAbsolute_of_isProper (proper : isProper name = true) : isAbsolute name = false := by
  cases name with
  | nil => rfl
  | cons char rest =>
      rw [isAbsolute, List.head?_cons, beq_eq_false_iff_ne, ne_eq, Option.some.injEq]
      intro absolute
      subst absolute
      have qualified : isUnqualified (separator :: rest) = false := by simp [isUnqualified]
      have head := isProper_head proper qualified
      have empty : headSegment (separator :: rest) = [] := by simp [headSegment]
      rw [empty] at head
      cases head

/-- A proper name does not begin with the mark of the current namespace. -/
theorem dropRelative_of_isProper (proper : isProper name = true) : dropRelative name = name := by
  unfold dropRelative
  rw [if_neg]
  intro marked
  obtain ⟨rest, lowered⟩ := List.isPrefixOf_iff_prefix.1 marked
  have qualified : isUnqualified name = false := by
    apply Bool.eq_false_iff.2
    intro single
    have present : separator ∈ Text.lowerChars name := by
      rw [← lowered]
      exact List.mem_append_left _ (by decide)
    exact not_mem_of_isUnqualified single (Text.backslash_mem_of_mem_lowerAfter present)
  have first : Text.lowerChars (headSegment name) = "namespace".toList :=
    calc Text.lowerChars (headSegment name)
        = headSegment (Text.lowerChars name) := (headSegment_lowerChars qualified).symm
      _ = headSegment ("namespace".toList ++ separator :: rest) := congrArg headSegment lowered.symm
      _ = "namespace".toList := headSegment_append (by decide)
  have same : Text.lower (String.ofList (headSegment name)) = "namespace" := by
    rw [Text.lower, String.toList_ofList, first, String.ofList_toList]
  have stands := isProper_head proper qualified
  simp [isProperSegment, same] at stands

/-- The first step of a proper name. -/
theorem NameView.of_isProper (proper : isProper name = true) :
    NameView.of name =
      if isUnqualified name then .plain name
      else .qualified (headSegment name) (tailSegments name) := by
  unfold NameView.of
  simp [dropRelative_of_isProper proper, isAbsolute_of_isProper proper]

/-- The first step of an absolute name. -/
theorem NameView.of_absolute (proper : isProper name = true) :
    NameView.of (separator :: name) = .absolute name := by
  have unmarked : dropRelative (separator :: name) = separator :: name := by
    unfold dropRelative
    rw [if_neg]
    intro marked
    cases marked
  have stops : name.dropWhile (· == separator) = name := by
    have relative := isAbsolute_of_isProper proper
    cases name with
    | nil => rfl
    | cons char rest =>
        have other : (char == separator) = false := by
          simpa [isAbsolute] using relative
        rw [List.dropWhile_cons, other]
        rfl
  unfold NameView.of
  simp [unmarked, isAbsolute, stops]

/-- The empty name is not proper. -/
theorem ne_nil_of_isProper (proper : isProper name = true) : name ≠ [] := by
  rintro rfl
  have segment := isProper_single proper rfl
  cases segment

namespace Registry

variable {ν : Type} (registry : Registry ν) (id : ScopeId)

/-- A single segment is a namespace nested where the lookup stands. -/
theorem namespaceAt_single (proper : isProper name = true) (single : isUnqualified name = true) :
    registry.namespaceAt id name = registry.nestedNamespace id (String.ofList name) := by
  have view := NameView.of_isProper proper
  rw [single, if_pos rfl] at view
  rw [namespaceAt, if_neg (by simpa using ne_nil_of_isProper proper)]
  split <;> rename_i found <;> rw [view] at found <;> cases found
  rfl

/-- A namespace is looked up one segment after the other. -/
theorem namespaceAt_qualified (proper : isProper name = true)
    (qualified : isUnqualified name = false) :
    registry.namespaceAt id name =
      registry.nestedNamespace id (String.ofList (headSegment name)) >>= fun inner =>
        registry.namespaceAt inner (tailSegments name) := by
  have view := NameView.of_isProper proper
  rw [qualified, if_neg Bool.false_ne_true] at view
  rw [namespaceAt, if_neg (by simpa using ne_nil_of_isProper proper)]
  split <;> rename_i found <;> rw [view] at found <;> cases found
  rfl

/-- An absolute name of a namespace is looked up from the global one. -/
theorem namespaceAt_absolute (proper : isProper name = true) :
    registry.namespaceAt id (separator :: name) =
      registry.globalOf id >>= fun root => registry.namespaceAt root name := by
  have view := NameView.of_absolute proper
  rw [namespaceAt, if_neg (by simp)]
  split <;> rename_i found <;> rw [view] at found <;> cases found
  rfl

variable (kind : SymbolKind) (fallback : Bool)

/-- A single segment is a symbol where the lookup stands. -/
theorem symbolAt_single (proper : isProper name = true) (single : isUnqualified name = true) :
    registry.symbolAt kind fallback id name =
      registry.localSymbol kind fallback id (String.ofList name) := by
  have view := NameView.of_isProper proper
  rw [single, if_pos rfl] at view
  rw [symbolAt]
  split <;> rename_i found <;> rw [view] at found <;> cases found
  rfl

/-- A qualified symbol is looked up in the namespace of its first segment, without a fallback. -/
theorem symbolAt_qualified (proper : isProper name = true)
    (qualified : isUnqualified name = false) :
    registry.symbolAt kind fallback id name =
      registry.nestedNamespace id (String.ofList (headSegment name)) >>= fun inner =>
        registry.symbolAt kind false inner (tailSegments name) := by
  have view := NameView.of_isProper proper
  rw [qualified, if_neg Bool.false_ne_true] at view
  rw [symbolAt]
  split <;> rename_i found <;> rw [view] at found <;> cases found
  rfl

/-- An absolute name of a symbol is looked up from the global namespace, without a fallback. -/
theorem symbolAt_absolute (proper : isProper name = true) :
    registry.symbolAt kind fallback id (separator :: name) =
      registry.globalOf id >>= fun root => registry.symbolAt kind false root name := by
  have view := NameView.of_absolute proper
  rw [symbolAt]
  split <;> rename_i found <;> rw [view] at found <;> cases found
  rfl

end Registry

/-- An absolute name is refused where a namespace is declared. -/
theorem enterNamespaces_absolute {ν : Type} (id : ScopeId) (absolute : isAbsolute name = true) :
    (enterNamespaces id name : Registering ν ScopeId) =
      throw (.absoluteName (String.ofList name)) := by
  rw [enterNamespaces, if_pos absolute]

/-- A single segment is entered where the declaration stands. -/
theorem enterNamespaces_single {ν : Type} (id : ScopeId) (relative : isAbsolute name = false)
    (single : isUnqualified name = true) :
    (enterNamespaces id name : Registering ν ScopeId) =
      enterNamespace id (String.ofList name) := by
  rw [enterNamespaces, if_neg (by simp [relative]), dif_pos single]

/-- A path is entered one segment after the other. -/
theorem enterNamespaces_qualified {ν : Type} (id : ScopeId) (relative : isAbsolute name = false)
    (qualified : isUnqualified name = false) :
    (enterNamespaces id name : Registering ν ScopeId) =
      enterNamespace id (String.ofList (headSegment name)) >>= fun inner =>
        enterNamespaces inner (tailSegments name) := by
  rw [enterNamespaces, if_neg (by simp [relative]), dif_neg (Bool.eq_false_iff.1 qualified)]

end PhpTaint.Scopes
