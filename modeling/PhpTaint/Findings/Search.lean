import PhpTaint.Findings.Basic
import PhpTaint.Flow.Expression

/-!
# The search for findings

All files of a search are annotated first and share one global scope, so that a
function declared in one file is followed at a call in another. Then every sink
of every file is checked where it stands: the arguments that the rules name are
traced, and a leaf that carries untrusted input and is not strongly protected on
every flow makes a finding. One finding is kept for each line and sink.

A file with a structural fault is skipped, with a note; the other files are
searched all the same.
-/

namespace PhpTaint.Findings

open Annotation PhpTaint.Flow Json Rules Scopes Syntax

/-- The language construct behind a kind of node, where it can be a sink. -/
def constructSink? (kind : String) : Option String :=
  match kind with
  | "echo_statement" => some "echo"
  | "print_intrinsic" => some "print"
  | "include_expression" => some "include"
  | "include_once_expression" => some "include_once"
  | "require_expression" => some "require"
  | "require_once_expression" => some "require_once"
  | _ => none

/-- The element at a position that may count from the end. -/
def elementAt {α : Type} (items : List α) (position : Int) : Except Fault α :=
  let index := if position < 0 then position + Int.ofNat items.length else position
  if index < 0 then .error .outOfRange
  else
    match items[index.toNat]? with
    | some item => .ok item
    | none => .error .outOfRange

/-- Whether a decimal lies below a count. -/
def decimalBelow (decimal : Decimal) (count : Nat) : Bool :=
  match decimal with
  | .finite negative magnitude places =>
      decide (signed negative magnitude < Int.ofNat (count * Nat.pow 10 places))
  | .infinite negative => negative
  | .undefined => false

/-- The argument at one checked position: none when the call has too few. A
position has to be a whole number. -/
def argumentAt (arguments : List Node) (position : Value) : Except Fault (Option Node) :=
  let pick (index : Int) : Except Fault (Option Node) :=
    if index < Int.ofNat arguments.length then (elementAt arguments index).map some else .ok none
  match position with
  | .int index => pick index
  | .bool flag => pick (if flag then 1 else 0)
  | .scalar (.decimal value) =>
      if decimalBelow value arguments.length then .error .illTyped else .ok none
  | _ => .error .illTyped

/-- The positions that a value lists. A text or mapping lists names, which are
no positions. -/
def listedPositions : Value -> Except Fault (List Value)
  | .list items => .ok items
  | _ => .error .illTyped

/-- The arguments of a call that a sink checks. -/
def checkedArguments (sink : SinkRule) (arguments : List Node) : Except Fault (List Node) := do
  if sink.positions.isPresent then
    let positions ← listedPositions sink.positions
    let chosen ← positions.mapM (argumentAt arguments)
    return chosen.filterMap id
  else return arguments

/-- The sink at a node with the expressions that are checked; an argument without
a value is checked as none. -/
def sinkArguments (rules : RuleSet) (node : Node) :
    Except Fault (List (SinkRule × Option Node)) := do
  match constructSink? node.kind with
  | some construct =>
      match rules.sink? construct with
      | some sink =>
          let parts := node.namedChildren.filter fun child => child.kind ≠ "comment"
          return parts.map fun part => (sink, some part)
      | none => return []
  | none =>
      if node.form ≠ .call then return []
      else
        match rules.sink? node.calleeName with
        | some sink =>
            if sink.kind.isText "function" then
              let arguments ← checkedArguments sink node.arguments
              return arguments.map fun argument => (sink, argument.argumentValue)
            else return []
        | none => return []

/-- How well sanitizers protect a sink. -/
inductive Protection where
  /-- No sanitizer covers the vulnerability. -/
  | absent
  /-- Only incomplete sanitizers cover it. -/
  | weak
  /-- A complete sanitizer covers it. -/
  | strong
  deriving DecidableEq, Repr

/-- The better of two protections. -/
def Protection.best (left right : Protection) : Protection :=
  match left, right with
  | .strong, _ | _, .strong => .strong
  | .weak, _ | _, .weak => .weak
  | .absent, .absent => .absent

/-- The protection that one sanitizer gives against a vulnerability. -/
def protectionBy (rules : RuleSet) (vulnerability : Scalar) (sanitizer : String) :
    Except Fault Protection := do
  match rules.sanitizer? sanitizer with
  | none => return .absent
  | some rule =>
      if ← lists rule.protectsAgainst (.scalar vulnerability) then
        match rule.strength with
        | .scalar strength => return if strength = .text "strong" then .strong else .weak
        | _ => .error .illTyped
      else return .absent

/-- The protection that several sanitizers give against a vulnerability. -/
def protectionOf (rules : RuleSet) (vulnerability : Scalar) (sanitizers : NameSet) :
    Except Fault Protection :=
  sanitizers.toList.foldlM
    (fun best sanitizer => return best.best (← protectionBy rules vulnerability sanitizer))
    .absent

/-- Take a note. -/
def remark (urgency : Urgency) (text : String) : Tracing Unit :=
  modify fun memory => { memory with journal := ⟨urgency, .findings, text⟩ :: memory.journal }

/-- Whether a leaf of this level is reported. -/
def isReported (includeUnknown : Bool) (level : Level) : Bool :=
  match level with
  | .tainted => true
  | .unknown => includeUnknown
  | .unassigned => false

/-- The leaves reported so far, and the confidence that they give. -/
structure Verdict where
  reported : List LeafRecord
  confidence : Confidence

/-- Judge one leaf. -/
def judgeLeaf (includeUnknown : Bool) (node : Node) (sink : SinkRule) (verdict : Verdict)
    (record : LeafRecord) : Tracing Verdict := do
  if !isReported includeUnknown record.level then return verdict
  else
    let program ← read
    match ← orFault (protectionOf program.rules sink.vulnerability record.common) with
    | .strong =>
        remark .debug (sink.name ++ " at line " ++ toString node.line ++ ": " ++ record.name ++
          " sanitized by " ++ Text.quotedList record.common.toList)
        return verdict
    | protection =>
        return {
          reported := verdict.reported ++ [record]
          confidence :=
            if record.level = .tainted && protection = .absent then .high
            else verdict.confidence }

/-- Check one argument of a sink. -/
def checkArgument (includeUnknown : Bool) (node : Node) (sink : SinkRule)
    (argument : Option Node) : Tracing (Option Finding) := do
  match argument with
  | none => return none
  | some expression =>
      let deps ← traceInPlace expression
      let verdict ← deps.values.foldlM (judgeLeaf includeUnknown node sink) ⟨[], .low⟩
      if verdict.reported.isEmpty then return none
      else
        return some {
          file := node.file
          line := node.line
          sink := normalizeName sink.name
          vulnerability := sink.vulnerability
          severity := sink.severity
          level := Level.joinAll (verdict.reported.map Record.level)
          code := node.text
          cwe := sink.cwe
          sanitizers := deps.sanitizers.toList
          confidence := verdict.confidence }

/-- Add a finding unless one for its line and sink is there. -/
def addFinding (findings : List Finding) (finding : Finding) : List Finding :=
  if findings.any fun other => other.line == finding.line && other.sink == finding.sink then findings
  else findings ++ [finding]

/-- Check all arguments of one node. -/
def searchNode (includeUnknown : Bool) (findings : List Finding) (node : Node) :
    Tracing (List Finding) := do
  let program ← read
  let arguments ← orFault (sinkArguments program.rules node)
  arguments.foldlM
    (fun current (sink, argument) => do
      match ← checkArgument includeUnknown node sink argument with
      | some finding => return addFinding current finding
      | none => return current)
    findings

/-- The findings of one file. -/
def searchProgram (includeUnknown : Bool) (root : Node) : Tracing (List Finding) :=
  root.descendants.foldlM (searchNode includeUnknown) []

/-- The message about a skipped file. -/
def skipMessage (file : String) (fault : Fault) : String :=
  "Skipping " ++ file ++ ": " ++ fault.message

/-- What the annotation of several files has come to. -/
structure Intake where
  annotator : Annotator
  /-- The roots of the files that were annotated. -/
  accepted : List Node
  /-- The skipped files with the reasons. -/
  errors : List (String × String)

/-- Annotate one file. -/
def takeIn (root : Node) : EStateM Fault Intake Unit := fun intake =>
  match annotateProgram root intake.annotator with
  | .ok _ annotator =>
      .ok () { intake with annotator := annotator, accepted := intake.accepted ++ [root] }
  | .error fault annotator =>
      if fault.isStructural then
        let noted := { annotator with
          registry := annotator.registry.write
            ⟨.error, .findings, skipMessage root.file fault⟩ }
        .ok () { intake with
          annotator := noted, errors := intake.errors ++ [(root.file, fault.message)] }
      else .error fault { intake with annotator := annotator }

/-- What a search has come to. -/
structure Progress where
  findings : List Finding
  /-- The skipped files with the reasons. -/
  errors : List (String × String)
  /-- What tracing has learned. -/
  memory : Memory

/-- Search one file. -/
def searchInto (includeUnknown : Bool) (program : Program) (root : Node) :
    EStateM Fault Progress Unit := fun progress =>
  match searchProgram includeUnknown root program progress.memory with
  | .ok findings memory =>
      .ok () { progress with findings := progress.findings ++ findings, memory := memory }
  | .error fault memory =>
      if fault.isStructural then
        let noted := { memory with
          journal := ⟨.error, .findings, skipMessage root.file fault⟩ :: memory.journal }
        .ok () { progress with
          errors := progress.errors ++ [(root.file, fault.message)], memory := noted }
      else .error fault { progress with memory := memory }

/-- The outcome of a search: the findings or the fault that ended it, the files
skipped so far, and the notes, newest first. -/
structure Outcome where
  /-- The findings, or the fault that ended the search. -/
  findings : Except Fault (List Finding)
  errors : List (String × String)
  /-- Notes, newest first. -/
  journal : Journal

/-- Search files that share one global scope. Skipped files and notes are added
to those of earlier searches. -/
def search (rules : RuleSet) (includeUnknown : Bool) (errors : List (String × String))
    (journal : Journal) (roots : List Node) : Outcome :=
  let start := Annotator.start
  let noted := { start with registry := { start.registry with journal := journal } }
  match roots.forM takeIn ⟨noted, [], errors⟩ with
  | .error fault intake => ⟨.error fault, intake.errors, intake.annotator.registry.journal⟩
  | .ok _ intake =>
      let program := Program.ofAnnotated intake.annotator rules roots
      let memory := { Memory.start with journal := intake.annotator.registry.journal }
      match intake.accepted.forM (searchInto includeUnknown program) ⟨[], intake.errors, memory⟩ with
      | .error fault progress => ⟨.error fault, progress.errors, progress.memory.journal⟩
      | .ok _ progress => ⟨.ok progress.findings, progress.errors, progress.memory.journal⟩

/-- Go on with another group of files, unless a fault has ended the search. -/
def Outcome.andThen (rules : RuleSet) (includeUnknown : Bool) (outcome : Outcome)
    (roots : List Node) : Outcome :=
  match outcome.findings with
  | .error _ => outcome
  | .ok found =>
      let next := search rules includeUnknown outcome.errors outcome.journal roots
      { next with findings := next.findings.map (found ++ ·) }

/-- Search groups of files one after the other, each with a global scope of its
own. -/
def searchEach (rules : RuleSet) (includeUnknown : Bool) (groups : List (List Node)) : Outcome :=
  groups.foldl (Outcome.andThen rules includeUnknown) ⟨.ok [], [], []⟩

end PhpTaint.Findings
