import PhpTaint.NameSet
import PhpTaint.Taint.Level

/-!
# Taint records

A `Record` is what one analysis knows about one leaf that a value may be drawn
from. It keeps the sanitizers met on some flow, those met on every flow, and
those that a reversing function undid. The last set matters only for
parameters: the argument that takes the place of a parameter arrives with its
own sanitizers, and the undone ones have to be taken from it again.

What a record points to is a parameter of the type; the algebra of records does
not look at it.
-/

namespace PhpTaint

/-- What is known about one leaf of the flow into a value. -/
structure Record (δ : Type) where
  /-- The variable, with its sigil, or a label such as `getenv()`. -/
  name : String
  level : Level
  /-- The sanitizers applied on some flow. -/
  sanitizers : NameSet
  /-- The binding that the leaf traces back to. -/
  definition : Option δ
  /-- The sanitizers applied on every flow. -/
  common : NameSet
  /-- The sanitizers that reversing functions undid. -/
  revoked : NameSet
  deriving DecidableEq, Repr

namespace Record

variable {δ : Type}

/-- A record on which no sanitizer has acted. -/
def leaf (name : String) (level : Level) (definition : Option δ) : Record δ :=
  ⟨name, level, ∅, definition, ∅, ∅⟩

/-- A record for a name of which nothing has been observed. -/
def unassigned (name : String) : Record δ := leaf name .unassigned none

/-- The record after a sanitizer. -/
def withSanitizer (record : Record δ) (sanitizer : String) : Record δ :=
  { record with
    sanitizers := record.sanitizers.insert sanitizer
    common := record.common.insert sanitizer }

/-- The record after a function that undoes a sanitizer. -/
def withoutSanitizer (record : Record δ) (sanitizer : String) : Record δ :=
  { record with
    sanitizers := record.sanitizers.erase sanitizer
    common := record.common.erase sanitizer
    revoked := record.revoked.insert sanitizer }

/-- The record of an argument after the steps that are recorded on the parameter
it is passed for. -/
def passedThrough (argument parameter : Record δ) : Record δ :=
  { argument with
    sanitizers := (argument.sanitizers \ parameter.revoked) ∪ parameter.sanitizers
    common := (argument.common \ parameter.revoked) ∪ parameter.common
    revoked := argument.revoked ∪ parameter.revoked }

/-- The record for a leaf that is reached by both flows; name and definition are
those of the first. -/
def join (first second : Record δ) : Record δ :=
  { first with
    level := first.level.join second.level
    sanitizers := first.sanitizers ∪ second.sanitizers
    common := first.common ∩ second.common
    revoked := first.revoked ∪ second.revoked }

end Record

end PhpTaint
