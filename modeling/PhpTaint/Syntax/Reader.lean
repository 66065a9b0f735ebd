import PhpTaint.Json.Value
import PhpTaint.Syntax.Tree

/-!
# Reading syntax trees

Parsing is not part of this library: a parser delivers each tree as data. A node
is a sequence of its kind, whether it is named, the first byte and the byte
after its span, its label in its parent, and the sequence of its children.
-/

namespace PhpTaint.Syntax

open Json (Value)

/-- A byte position. -/
def positionOf? : Value -> Option Nat
  | .int (.ofNat position) => some position
  | _ => none

mutual

/-- The tree that a value describes. -/
def Tree.ofValue? : Value -> Option Tree
  | .list [.text kind, .int named, start, stop, .text label, .list children] => do
      let first ← positionOf? start
      let last ← positionOf? stop
      let inner ← treesOfValues? children
      return .node kind (named != 0) first last label inner
  | _ => none

/-- The trees that values describe. -/
def treesOfValues? : List Value -> Option (List Tree)
  | [] => some []
  | value :: rest => do
      let tree ← Tree.ofValue? value
      let trees ← treesOfValues? rest
      return tree :: trees

end

end PhpTaint.Syntax
