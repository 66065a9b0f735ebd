import PhpTaint.Text.Quoted

/-!
# Faults

Every way in which an operation of this library can refuse an input is a
constructor of `Fault`. A fault carries what its message needs and nothing
else; the wording is fixed in `Fault.message` alone.

Unbound identifiers are expected while a program is analysed and are mostly
caught where they arise. Structural faults mean that scopes or annotations are
not what the analysis relies on, and they end the analysis of a file. Ill-typed
rules are faults of the rule files, and ill-formed reports those of report data.
-/

namespace PhpTaint

/-- The cause for which an operation was refused. -/
inductive Fault where
  /-- An identifier has no reachable binding from the named scope. -/
  | unbound (identifier scope : String)
  /-- Something was looked up from the named scope without an identifier. -/
  | unnamed (scope : String)
  /-- No namespace encloses the described scope. -/
  | outsideNamespace (scope : String)
  /-- The chain of the described scope does not end in a global scope. -/
  | outsideProgram (scope : String)
  /-- A continuation is not directly enclosed by the namespace it continues. -/
  | strayContinuation
  /-- No scope was recorded for the described node. -/
  | unannotated (node : String)
  /-- There is no current scope to replace. -/
  | noCurrentScope
  /-- The outermost scope cannot be left. -/
  | outermostScope
  /-- Scopes were entered and not left; their descriptions, outermost first. -/
  | unbalancedScopes (scopes : List String)
  /-- A variable name lacks its sigil. -/
  | notAVariable (name : String)
  /-- A name that has to be relative is absolutely qualified. -/
  | absoluteName (name : String)
  /-- A number does not denote a taint level. -/
  | invalidLevel (code : Int)
  /-- A value does not offer the operation that was asked of it. -/
  | missingOperation
  /-- A value has a type that the operation cannot work with. -/
  | illTyped
  /-- A position lies outside a sequence. -/
  | outOfRange
  /-- A mapping lacks a field. -/
  | missingField
  /-- A value has fewer parts than the two that it should have. -/
  | tooFewParts (count : Nat)
  /-- A value has more parts than the two that it should have. -/
  | tooManyParts
  /-- A path holds the one character that no path can hold. -/
  | nullInPath
  /-- A directory stands in the place of the file at a path. -/
  | directoryForFile (path : String)
  /-- Data flow was followed beyond the bound that the program admits. -/
  | tooDeep
  deriving DecidableEq, Repr, Inhabited

namespace Fault

/-- The message of a fault. -/
def message : Fault -> String
  | .unbound identifier scope =>
      "Unbound identifier " ++ Text.quoted identifier ++ " in " ++ scope
  | .unnamed scope => "Unbound identifier None in " ++ scope
  | .outsideNamespace scope => scope ++ " is not enclosed by a namespace"
  | .outsideProgram scope => scope ++ " is not rooted in a global environment"
  | .strayContinuation =>
      "NamespaceContinuationEnvironments must be enclosed by a NamespaceEnvironment"
  | .unannotated node => node ++ " has no environment annotation"
  | .noCurrentScope => "Environment stack cannot be empty."
  | .outermostScope => "Cannot pop the global environment off the environment stack."
  | .unbalancedScopes scopes =>
      "Environment stack unbalanced after traversal: [" ++ String.intercalate ", " scopes ++ "]"
  | .notAVariable name => "Variable names must start with $: " ++ name
  | .absoluteName name => name ++ " is absolutely qualified"
  | .invalidLevel code => toString code ++ " is not a valid Taint"
  | .missingOperation => "the value does not offer this operation"
  | .illTyped => "the value has the wrong type for this operation"
  | .outOfRange => "the position is out of range"
  | .missingField => "the mapping lacks this field"
  | .tooFewParts count => "not enough values to unpack (expected 2, got " ++ toString count ++ ")"
  | .tooManyParts => "too many values to unpack (expected 2)"
  | .nullInPath => "embedded null byte"
  | .directoryForFile path => "[Errno 21] Is a directory: " ++ Text.quoted path
  | .tooDeep => "the flow of data is nested too deeply"

/-- Whether a fault only says that an identifier is not bound. -/
def isUnbound : Fault -> Bool
  | .unbound _ _ | .unnamed _ => true
  | _ => false

/-- Whether a fault says that scopes or annotations are not in order. -/
def isStructural : Fault -> Bool
  | .outsideNamespace _ | .outsideProgram _ | .strayContinuation | .unannotated _
  | .noCurrentScope | .outermostScope | .unbalancedScopes _ => true
  | _ => false

end Fault

end PhpTaint
