import PhpTaint.Fault
import PhpTaint.Json.Value
import PhpTaint.Table
import PhpTaint.Text.Affix
import PhpTaint.Text.Case

/-!
# Taint rules

The rules say where untrusted input comes from, where it must not arrive, and
which functions make it harmless. A rule set is four tables: sources, sinks and
sanitizers by the name under which they are matched, and the sanitizer that each
reversing function undoes.

Rule files promise no schema. A field that is only shown is kept as it was
written; a field that decides something is read when the decision is due, and a
value that does not admit the decision is a fault at that moment.

Rules are asked for by values that come from elsewhere. An undefined number that
is asked for is therefore not the one of a rule, and no rule answers it; rules
among each other mean the same undefined number.
-/

namespace PhpTaint.Rules

open Json (Scalar Value)

/-- A place that untrusted input comes from. -/
structure SourceRule where
  /-- The key of the rule, as the first entry with an equal key spelled it. -/
  key : Scalar
  name : Scalar
  /-- The group of the rule file: variables, functions or others. -/
  category : Scalar
  description : Value
  deriving Repr

/-- A place that untrusted input must not reach. -/
structure SinkRule where
  name : String
  vulnerability : Scalar
  severity : Value
  /-- The checked argument positions; none given means all of them. -/
  positions : Value
  cwe : Value
  /-- Whether the sink is a function or a construct. -/
  kind : Value
  description : Value
  deriving Repr

/-- A function that makes input harmless for some sinks. -/
structure SanitizerRule where
  name : String
  protectsAgainst : Value
  reversedBy : Value
  /-- Whether the protection is complete. -/
  strength : Value
  deriving Repr

/-- The rules of an analysis. -/
structure RuleSet where
  /-- Sources by the normal form of their key: functions by lower-case name,
  everything else by name. -/
  sources : Table Scalar SourceRule
  /-- Sinks by lower-case name. -/
  sinks : Table String SinkRule
  /-- Sanitizers by lower-case name. -/
  sanitizers : Table String SanitizerRule
  /-- The sanitizer that each reversing function undoes. -/
  reverses : Table String String

instance : EmptyCollection RuleSet := ⟨⟨∅, ∅, ∅, ∅⟩⟩

instance : Inhabited RuleSet := ⟨∅⟩

/-- The group of sources that are variables. -/
def variableCategory : Scalar := .text "superglobals"

/-- The group of sources that are functions. -/
def functionCategory : Scalar := .text "functions"

/-- The spelling under which a function is matched: letter case does not matter,
and a name may be written fully qualified. -/
def normalizeName (name : String) : String := Text.lower (Text.dropLeading '\\' name)

/-- Whether a value lists another one: a text lists its parts, a sequence its
items and a mapping its field names. A text can only be searched for texts and a
mapping only for scalars; any other value lists nothing. -/
def lists (value wanted : Value) : Except Fault Bool :=
  match value, wanted with
  | .text text, .text part => .ok (Text.includes text part)
  | .list items, _ => .ok (items.any fun item => item.agrees wanted)
  | .object fields, .scalar (.text name) => .ok (fields.any fun field => field.1 == name)
  | .object _, .scalar _ => .ok false
  | _, _ => .error .illTyped

/-- A source as data. -/
def SourceRule.toValue (source : SourceRule) : Value := .object [
  ("name", .scalar source.name),
  ("category", .scalar source.category),
  ("description", source.description)]

/-- A sink as data. -/
def SinkRule.toValue (sink : SinkRule) : Value := .object [
  ("name", .text sink.name),
  ("vuln_type", .scalar sink.vulnerability),
  ("severity", sink.severity),
  ("arg_positions", sink.positions),
  ("cwe", sink.cwe),
  ("kind", sink.kind),
  ("description", sink.description)]

/-- A sanitizer as data. -/
def SanitizerRule.toValue (sanitizer : SanitizerRule) : Value := .object [
  ("name", .text sanitizer.name),
  ("protects_against", sanitizer.protectsAgainst),
  ("reversed_by", sanitizer.reversedBy),
  ("strength", sanitizer.strength)]

namespace RuleSet

/-- Whether a name is that of a variable with untrusted input. -/
def isInputName (rules : RuleSet) (name : Scalar) : Bool :=
  match rules.sources.find? name.normal with
  | some source => name.isDefined && source.category == variableCategory
  | none => false

/-- Whether a variable carries untrusted input. -/
def isInputVariable (rules : RuleSet) (name : String) : Bool := rules.isInputName (.text name)

/-- Whether a function returns untrusted input. -/
def isInputFunction (rules : RuleSet) (name : String) : Bool :=
  match rules.sources.find? (.text (normalizeName name)) with
  | some source => source.category == functionCategory
  | none => false

/-- The sink of a name. -/
def sink? (rules : RuleSet) (name : String) : Option SinkRule :=
  rules.sinks.find? (normalizeName name)

/-- Whether a name is a sink. -/
def isSink (rules : RuleSet) (name : String) : Bool := (rules.sink? name).isSome

/-- The sanitizer of a name. -/
def sanitizer? (rules : RuleSet) (name : String) : Option SanitizerRule :=
  rules.sanitizers.find? (normalizeName name)

/-- Whether a function is a sanitizer. -/
def isSanitizer (rules : RuleSet) (name : String) : Bool := (rules.sanitizer? name).isSome

/-- The sanitizer that a function undoes. -/
def undoneBy? (rules : RuleSet) (name : String) : Option String :=
  rules.reverses.find? (normalizeName name)

/-- Whether a function undoes a sanitizer. -/
def isReverse (rules : RuleSet) (name : String) : Bool := (rules.undoneBy? name).isSome

/-- What a sanitizer protects against; a function that is none protects against
nothing. -/
def protectionsOf (rules : RuleSet) (name : String) : Value :=
  match rules.sanitizer? name with
  | some sanitizer => sanitizer.protectsAgainst
  | none => .list []

/-- Whether a value that comes from elsewhere asks for a scalar of a rule. -/
def asksFor (wanted : Value) (scalar : Scalar) : Bool :=
  wanted.isDefined && (Value.scalar scalar).agrees wanted

/-- The sources of a category; null asks for all of them. -/
def sourcesIn (rules : RuleSet) (category : Value) : Table Scalar SourceRule :=
  match category with
  | .null => rules.sources
  | wanted => rules.sources.filter fun _ source => asksFor wanted source.category

/-- The sinks for a vulnerability; null asks for all of them. -/
def sinksFor (rules : RuleSet) (vulnerability : Value) : Table String SinkRule :=
  match vulnerability with
  | .null => rules.sinks
  | wanted => rules.sinks.filter fun _ sink => asksFor wanted sink.vulnerability

/-- The sanitizers that protect against a vulnerability; null asks for all of
them. -/
def sanitizersFor (rules : RuleSet) (vulnerability : Value) :
    Except Fault (Table String SanitizerRule) :=
  match vulnerability with
  | .null => .ok rules.sanitizers
  | wanted => do
      let chosen ← rules.sanitizers.entries.filterM fun entry => do
        let listed ← lists entry.2.protectsAgainst wanted
        return wanted.isDefined && listed
      return Table.ofList chosen

end RuleSet

end PhpTaint.Rules
