import PhpTaint.Json.Reader
import PhpTaint.Rules.Default

/-!
# Rules given as data

Parsing of rule files is not part of this library: their contents arrive as
data. A file is described by the list of its groups, each a name with its
entries, or by its whole content; a file without a description does not exist.
-/

namespace PhpTaint.Rules

open Json (Document Value)

/-- The content of a described file; none when the file does not exist. -/
def describedContent? : Value -> Except Fault (Option Document)
  | .null => .ok none
  | .list groups => (Document.ofPairs groups).map some
  | .object fields => .ok (some (.ofValue (Value.fieldD fields "raw" .null)))
  | other => .ok (some (.ofValue other))

/-- The content that a description gives to one of the three files. -/
def fileContent? (description : Value) (file : String) : Except Fault (Option Document) :=
  describedContent? ((description.field? file).getD .null)

/-- The rules of a description; without a description the default rules. -/
def RuleSet.ofDescription (description : Value) : Except Fault RuleSet :=
  match description with
  | .null => .ok RuleSet.default
  | _ => do
      let content (file : String) : Except Fault Document := do
        return (← fileContent? description file).getD ∅
      RuleSet.ofContents (← content "sources") (← content "sinks") (← content "sanitizers")

end PhpTaint.Rules
