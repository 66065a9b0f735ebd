import PhpTaint.Proofs.Flow.Elementary
import PhpTaint.Proofs.Flow.Sessions
import PhpTaint.Proofs.Text.Case

/-!
# What warrants a record

Nothing is tainted unless the rules name it as an input, and nothing counts as
sanitized unless the rules name the sanitizer. A record is warranted if it bears the
name under which it is kept, the sanitizers on every flow are among those on some
flow, all of them are in the rules, what was revoked is named by a function of the
rules that undoes it, and only an input is tainted.

Warranted dependencies remain warranted however they are put together, so every
dependency that an analysis shows, or keeps in a summary, is warranted.
-/

namespace PhpTaint.Flow

open Scopes Syntax Rules

/-- A name stands for an input of the rules: it is that of a variable, or the label
of a call of a function. -/
inductive NamesInput (rules : RuleSet) : String -> Prop where
  /-- An input variable. -/
  | variable {name : String} (listed : rules.isInputVariable name = true) : NamesInput rules name
  /-- The label of an input function, by a function among the sources. -/
  | function {name : String} {source : SourceRule}
      (found : rules.sources.find? (.text name) = some source)
      (returns : (source.category == functionCategory) = true) : NamesInput rules (name ++ "()")

/-- The sanitizers of a record are in the rules, and so is what undid them. -/
structure Protected (rules : RuleSet) (record : LeafRecord) : Prop where
  common : forall sanitizer, sanitizer ∈ record.common -> sanitizer ∈ record.sanitizers
  sanitizers : forall sanitizer, sanitizer ∈ record.sanitizers -> sanitizer ∈ rules.sanitizers.keys
  revoked : forall sanitizer, sanitizer ∈ record.revoked ->
    ∃ function, rules.reverses.find? function = some sanitizer

/-- A record is warranted by the rules for the name under which it is kept. -/
structure Warranted (rules : RuleSet) (name : String) (record : LeafRecord) : Prop
    extends Protected rules record where
  named : record.name = name
  tainted : record.level = .tainted -> NamesInput rules name

/-- Dependencies whose records are all warranted. -/
abbrev AllWarranted (rules : RuleSet) (deps : Deps) : Prop :=
  Dependencies.All (Warranted rules) deps

section Records

variable {rules : RuleSet} {name : String} {record : LeafRecord}

/-- A record on which nothing has acted has nothing to warrant. -/
theorem Protected.leaf (name : String) (level : Level) (definition : Option (Binding Node)) :
    Protected rules (Record.leaf name level definition) := by
  have nothing : forall sanitizer, ¬ sanitizer ∈ (∅ : NameSet) := fun sanitizer => by simp
  exact ⟨fun _ member => member, fun _ member => absurd member (nothing _),
    fun _ member => absurd member (nothing _)⟩

/-- A sanitizer of the rules leaves what is warranted. -/
theorem Protected.withSanitizer (warranted : Protected rules record) {sanitizer : String}
    (listed : sanitizer ∈ rules.sanitizers.keys) :
    Protected rules (record.withSanitizer sanitizer) := by
  refine ⟨?_, ?_, warranted.revoked⟩
  · intro other member
    exact NameSet.mem_insert.2 ((NameSet.mem_insert.1 member).imp_right (warranted.common other))
  · intro other member
    rcases NameSet.mem_insert.1 member with rfl | earlier
    · exact listed
    · exact warranted.sanitizers other earlier

/-- A function that undoes a sanitizer by the rules leaves what is warranted. -/
theorem Protected.withoutSanitizer (warranted : Protected rules record)
    {function sanitizer : String} (undoes : rules.reverses.find? function = some sanitizer) :
    Protected rules (record.withoutSanitizer sanitizer) := by
  refine ⟨?_, ?_, ?_⟩
  · intro other member
    obtain ⟨before, different⟩ := NameSet.mem_erase.1 member
    exact NameSet.mem_erase.2 ⟨warranted.common other before, different⟩
  · intro other member
    exact warranted.sanitizers other (NameSet.mem_erase.1 member).1
  · intro other member
    rcases NameSet.mem_insert.1 member with rfl | earlier
    · exact ⟨function, undoes⟩
    · exact warranted.revoked other earlier

/-- What a function does to a flow is in the rules. Its name is asked for in normal
spelling, so it is the key itself that is recorded. -/
theorem protected_functionStep (rules : RuleSet) (node : Node) :
    Protected rules (functionStep rules (normalizeName node.text)) := by
  have idle : Protected rules (Record.idle : LeafRecord) := .leaf ..
  unfold functionStep
  simp only [normalizeName_normalizeName]
  split
  · rename_i isSanitizer
    refine idle.withSanitizer ?_
    unfold RuleSet.isSanitizer RuleSet.sanitizer? at isSanitizer
    rw [normalizeName_normalizeName] at isSanitizer
    exact (Table.find?_isSome_iff ..).1 isSanitizer
  · split
    · rename_i undone
      exact idle.withoutSanitizer undone
    · exact idle

namespace Warranted

/-- A leaf is warranted unless it is tainted and names no input. -/
theorem leaf {level : Level} (definition : Option (Binding Node))
    (tainted : level = .tainted -> NamesInput rules name) :
    Warranted rules name (Record.leaf name level definition) :=
  { Protected.leaf name level definition with named := rfl, tainted := tainted }

/-- A flow through a step of the rules. -/
theorem passedThrough (warranted : Warranted rules name record) {step : LeafRecord}
    (listed : Protected rules step) : Warranted rules name (record.passedThrough step) := by
  refine ⟨⟨?_, ?_, ?_⟩, warranted.named, warranted.tainted⟩
  · intro sanitizer member
    rcases NameSet.mem_union.1 member with kept | added
    · obtain ⟨before, unrevoked⟩ := NameSet.mem_sdiff.1 kept
      exact NameSet.mem_union.2
        (Or.inl (NameSet.mem_sdiff.2 ⟨warranted.common sanitizer before, unrevoked⟩))
    · exact NameSet.mem_union.2 (Or.inr (listed.common sanitizer added))
  · intro sanitizer member
    rcases NameSet.mem_union.1 member with kept | added
    · exact warranted.sanitizers sanitizer (NameSet.mem_sdiff.1 kept).1
    · exact listed.sanitizers sanitizer added
  · intro sanitizer member
    rcases NameSet.mem_union.1 member with before | added
    · exact warranted.revoked sanitizer before
    · exact listed.revoked sanitizer added

/-- Two flows to one leaf. -/
theorem join (name : String) (first second : LeafRecord) (one : Warranted rules name first)
    (other : Warranted rules name second) : Warranted rules name (first.join second) := by
  refine ⟨⟨?_, ?_, ?_⟩, one.named, ?_⟩
  · intro sanitizer member
    exact NameSet.mem_union.2 (Or.inl (one.common sanitizer (NameSet.mem_inter.1 member).1))
  · intro sanitizer member
    exact (NameSet.mem_union.1 member).elim (one.sanitizers sanitizer) (other.sanitizers sanitizer)
  · intro sanitizer member
    exact (NameSet.mem_union.1 member).elim (one.revoked sanitizer) (other.revoked sanitizer)
  · intro tainted
    have attained : first.level.join second.level = .tainted := tainted
    unfold Level.join at attained
    split at attained
    · exact other.tainted attained
    · exact one.tainted attained

end Warranted

end Records

/-- A call is an input only by a function among the sources. -/
theorem NamesInput.of_calleeOf {rules : RuleSet} {node : Node} {name : String}
    (callee : calleeOf rules node = .input name) : NamesInput rules (name ++ "()") := by
  unfold calleeOf at callee
  split at callee
  · cases callee
  · rename_i target _
    split at callee
    · split at callee
      · rename_i isInput
        cases Callee.input.inj callee
        unfold RuleSet.isInputFunction at isInput
        rw [normalizeName_normalizeName] at isInput
        split at isInput
        · rename_i source found
          exact .function found isInput
        · cases isInput
      · cases callee
    · cases callee

namespace AllWarranted

variable {rules : RuleSet} {name : String} {deps : Deps}

/-- A leaf of unknown origin needs no warrant. -/
theorem unknownLeaf (name : String) (definition : Option (Binding Node)) :
    AllWarranted rules (unknownLeaf name definition) :=
  .single (.leaf definition nofun)

/-- The leaf of a parameter needs no warrant. -/
theorem parameterLeaf (name : String) : AllWarranted rules (parameterLeaf name) :=
  .single (.leaf none nofun)

/-- Merged parts are warranted if each of them is. -/
theorem merge {parts : List Deps} (each : forall part, part ∈ parts -> AllWarranted rules part) :
    AllWarranted rules (Dependencies.merge parts) :=
  Dependencies.All.merge Warranted.join each

/-- What passes through a function stays warranted if the step lists what the rules say. -/
theorem passedThrough (all : AllWarranted rules deps) {step : LeafRecord}
    (listed : Protected rules step) :
    AllWarranted rules (deps.mapValues fun record => record.passedThrough step) :=
  all.mapValues fun _ _ warranted => warranted.passedThrough listed

/-- An expression is an input leaf only if the rules say so. -/
theorem joinParts {node : Node} {results : List Deps}
    (each : forall deps, deps ∈ results -> AllWarranted rules deps) :
    AllWarranted rules (joinParts rules node results) := by
  unfold Flow.joinParts
  cases form : node.form with
  | dynamicVariable => exact unknownLeaf _ _
  | call =>
      simp only
      cases callee : calleeOf rules node with
      | dynamic text => exact unknownLeaf _ _
      | input name => exact .single (.leaf _ fun _ => .of_calleeOf callee)
      | named target =>
          refine merge fun part member => ?_
          obtain ⟨deps, listed, rfl⟩ := List.mem_map.1 member
          rw [applyFunction_eq_mapValues]
          exact (each deps listed).passedThrough (protected_functionStep rules target)
  | assignment => exact merge fun part member => each part (List.mem_reverse.1 member)
  | literal | variableName | operands | unary | array | container | staticProperty | methodCall
  | conditional | cast | interpolated | argument | other => exact merge each

/-- A call puts arguments in the place of parameters and passes them through what is
recorded on those. -/
theorem substitute {summary : Summary} {arguments : Table String Deps}
    (returns : Each (AllWarranted rules) summary.returns)
    (passed : Each (AllWarranted rules) arguments) :
    AllWarranted rules (substitute summary arguments) := by
  refine substitute_holds (fun _ => merge) ?_ ?_
  · intro line deps name record listed found _
    have warranted := returns line deps listed name record found
    cases bound : arguments.find? name with
    | none => exact passedThrough .empty warranted.toProtected
    | some given => exact (passed name given bound).passedThrough warranted.toProtected
  · intro line deps name record listed found _
    exact .single (returns line deps listed name record found)

/-- Warranted dependencies may be put together in all the ways of tracing. -/
theorem composable (rules : RuleSet) : Composable rules (AllWarranted rules) where
  merge _ each := merge each
  join _ _ each := joinParts each
  unknown := unknownLeaf
  parameter := parameterLeaf
  input _ listed := .single (.leaf none fun _ => .variable listed)
  substitute _ _ returns passed := substitute returns passed

end AllWarranted

/-- Whatever is traced, records and dependencies are warranted. -/
def warrants (rules : RuleSet) : Regime where
  admits _ := True
  follows _ _ := True
  enters _ := True
  declares _ := True
  records := Warranted rules
  yields := AllWarranted rules
  fails _ := True

/-- A leaf of a warranted record is warranted. -/
theorem allWarranted_of_origin {rules : RuleSet} {registry : Registry Node} {name : String}
    {record : LeafRecord} {parameters : List String} {deps : Deps}
    (warranted : Warranted rules name record)
    (origin : recordOrigin registry parameters record = .leaf deps) : AllWarranted rules deps := by
  have bound : forall other binding, bindingOrigin parameters other binding = .leaf deps ->
      AllWarranted rules deps := by
    intro other binding origin
    cases binding with
    | referent node => cases origin
    | parameter parameter node index =>
        unfold bindingOrigin at origin
        cases origin
        split
        · exact .parameterLeaf other
        · exact .unknownLeaf other _
    | superglobal | globalReference | unset =>
        cases origin
        exact .unknownLeaf other _
  unfold recordOrigin at origin
  cases found : record.definition with
  | none =>
      rw [found] at origin
      cases origin
      rw [warranted.named]
      exact .single warranted
  | some binding =>
      rw [found] at origin
      cases binding with
      | globalReference other node owner =>
          simp only at origin
          split at origin
          · exact bound _ _ origin
          · cases origin
            exact .unknownLeaf _ _
      | referent | parameter | superglobal | unset => exact bound _ _ origin

/-- The regime of warranted records is lawful. -/
theorem warrants_lawful (program : Program) : (warrants program.rules).Lawful program where
  part _ _ _ _ := trivial
  argument _ _ _ _ := trivial
  definingPart _ _ _ _ _ := trivial
  former _ _ _ _ _ _ _ := trivial
  returned _ _ _ _ := trivial
  default _ _ _ _ _ _ := trivial
  kept _ _ := trivial
  callee _ _ _ _ _ _ _ := trivial
  undeclared _ _ _ _ _ _ _ := Or.inr trivial
  unannotated _ _ _ _ _ := trivial
  tooDeep := trivial
  bound _ _ _ binding _ _ _ := .leaf (some binding) nofun
  unbound _ := .leaf none nofun
  parameter _ := .leaf none nofun
  input name record listed warranted := by
    have tainted : Warranted program.rules name { record with level := .tainted } :=
      { warranted with tainted := fun _ => .variable listed }
    exact ⟨tainted, .single tainted⟩
  leaf _ _ _ _ warranted origin := allWarranted_of_origin warranted origin
  definition _ _ _ _ _ _ := trivial
  composable := AllWarranted.composable program.rules

/-- The dependencies that a reply shows. -/
def Reply.shown : Reply -> List Deps
  | .answer (.dependencies deps) => [deps]
  | .answer (.verdict _ _) => []
  | .dependencies deps => [deps]
  | .summary built => built.returns.values

/-- Every demand is one of this regime. -/
theorem within_warrants (program : Program) (demand : Demand) :
    demand.Within (warrants program.rules) program := by
  rcases demand with (_ | _ | _) | _ | _ | _ | _ <;>
    first
    | exact trivial
    | exact ⟨trivial, fun _ _ => trivial⟩
    | exact ⟨⟨fun _ _ => trivial, fun _ _ => trivial⟩, fun _ _ => trivial⟩
    | exact ⟨fun _ _ => trivial, fun _ _ => trivial⟩

/-- Under all rules and whatever has been asked before, the dependencies that are
answered to any request, and those that are kept in the summaries, hold warranted
records only. -/
theorem records_are_warranted (program : Program) (requests : List Request) :
    let desk := Desk.following program requests
    (forall request reply after deps name record,
      desk.run program request = .ok reply after -> deps ∈ reply.shown ->
        deps.find? name = some record -> Warranted program.rules name record) ∧
    forall key summary line deps name record,
      desk.memory.summaries.find? key = some summary -> summary.returns.find? line = some deps ->
        deps.find? name = some record -> Warranted program.rules name record := by
  intro desk
  have lawful := warrants_lawful program
  have holds : desk.Holds (warrants program.rules) :=
    Desk.following_holds lawful fun request _ => within_warrants program request.demand
  refine ⟨?_, ?_⟩
  · intro request reply after deps name record ended shown
    obtain ⟨passes, _⟩ :=
      (holds.run lawful (within_warrants program request.demand)).of_ok ended
    match reply, passes with
    | .answer (.dependencies found), warranted =>
        cases List.mem_singleton.1 shown
        exact warranted name record
    | .answer (.verdict _ _), _ => cases shown
    | .dependencies found, warranted =>
        cases List.mem_singleton.1 shown
        exact warranted name record
    | .summary built, sums =>
        obtain ⟨entry, listed, rfl⟩ := List.mem_map.1 shown
        exact sums.returns entry.1 entry.2 (Table.find?_eq_some_of_mem listed) name record
  · intro key summary line deps name record kept listed
    exact (holds.memory.sums key summary kept).returns line deps listed name record

/-- Rules with two inputs, a sanitizer and a function that undoes it. -/
def undoingRules : RuleSet :=
  { sources := (Table.empty.insert (.text "$_GET")
      ⟨.text "$_GET", .text "$_GET", variableCategory, .null⟩).insert (.text "g")
        ⟨.text "g", .text "g", functionCategory, .null⟩
    sinks := ∅
    sanitizers := Table.empty.insert "e" ⟨"e", .null, .null, .null⟩
    reverses := Table.empty.insert "d" "e" }

/-- The declaration in `undoingFile`. -/
def undoingDeclaration : Tree :=
  .node "function_definition" true 6 38 "" [
    .node "name" true 15 16 "name" [],
    .node "formal_parameters" true 16 20 "parameters" [
      .node "simple_parameter" true 17 19 "" [.node "variable_name" true 17 19 "name" []]],
    .node "compound_statement" true 21 38 "body" [
      .node "return_statement" true 23 36 "" [
        .node "function_call_expression" true 30 35 "" [
          .node "name" true 30 31 "function" [],
          .node "arguments" true 31 35 "arguments" [
            .node "argument" true 32 34 "" [.node "variable_name" true 32 34 "" []]]]]]]

/-- The expression in `undoingFile`. -/
def undoingExpression : Tree :=
  .node "binary_expression" true 39 56 "" [
    .node "function_call_expression" true 39 47 "left" [
      .node "name" true 39 40 "function" [],
      .node "arguments" true 40 47 "arguments" [
        .node "argument" true 41 46 "" [.node "variable_name" true 41 46 "" []]]],
    .node "function_call_expression" true 50 56 "right" [
      .node "name" true 50 51 "function" [],
      .node "arguments" true 51 56 "arguments" [
        .node "argument" true 52 55 "" [
          .node "function_call_expression" true 52 55 "" [
            .node "name" true 52 53 "function" [],
            .node "arguments" true 53 55 "arguments" []]]]]]

/-- The file `<?php function f($a) { return e($a); } f($_GET) . d(g());`. -/
def undoingFile : Node :=
  ⟨⟨"undoing.php", "<?php function f($a) \x7b return e($a); \x7d f($_GET) . d(g());".toUTF8⟩,
    .node "program" true 0 57 "" [
      undoingDeclaration, .node "expression_statement" true 39 57 "" [undoingExpression]]⟩

/-- One flow passes through a function that escapes its argument, the other through a
function that undoes escaping: both records are warranted. -/
theorem records_are_warranted_undone :
    let request : Request := ⟨.earlier 0, .expression (undoingFile.withTree undoingExpression)⟩
    let earlier : Request :=
      ⟨.fresh [] true, .summary (undoingFile.withTree undoingDeclaration)⟩
    ∃ ends annotator, [undoingFile].mapM Annotation.annotateProgram
        Annotation.Annotator.start = .ok ends annotator ∧
      let program := Program.ofAnnotated annotator undoingRules [undoingFile]
      ∃ deps after escaped undone,
        (Desk.following program [earlier]).run program request = .ok (.dependencies deps) after ∧
        deps.entries = [("$_GET", escaped), ("g()", undone)] ∧
        escaped.level = .tainted ∧ escaped.common.toList = ["e"] ∧
        undone.level = .tainted ∧ undone.revoked.toList = ["e"] ∧
        Warranted undoingRules "$_GET" escaped ∧ Warranted undoingRules "g()" undone := by
  intro request earlier
  have ran : Outcome.passes (fun _ annotator =>
      let program := Program.ofAnnotated annotator undoingRules [undoingFile]
      Outcome.passes (fun reply _ =>
        match reply with
        | .dependencies deps => decide (deps.entries.map (fun entry =>
            (entry.1, entry.2.level, entry.2.common.toList, entry.2.revoked.toList)) =
              [("$_GET", .tainted, ["e"], []), ("g()", .tainted, [], ["e"])])
        | _ => false)
        ((Desk.following program [earlier]).run program request))
      ([undoingFile].mapM Annotation.annotateProgram Annotation.Annotator.start) = true := by
    decide +kernel
  obtain ⟨ends, annotator, outcome, traces⟩ := Outcome.exists_of_passes ran
  obtain ⟨reply, after, ended, shows⟩ := Outcome.exists_of_passes traces
  refine ⟨ends, annotator, outcome, ?_⟩
  intro program
  match reply, shows with
  | .dependencies deps, shows =>
      have entries := of_decide_eq_true shows
      obtain ⟨⟨first, escaped⟩, rest, listed, same, others⟩ := List.map_eq_cons_iff.1 entries
      obtain ⟨⟨second, undone⟩, last, remaining, again, none⟩ := List.map_eq_cons_iff.1 others
      cases List.map_eq_nil_iff.1 none
      subst remaining
      simp only [Prod.mk.injEq] at same again
      obtain ⟨rfl, escapedLevel, escapedCommon, _⟩ := same
      obtain ⟨rfl, undoneLevel, _, undoneRevoked⟩ := again
      have warranted : forall name record, (name, record) ∈ deps.entries ->
          Warranted undoingRules name record := by
        intro name record member
        exact (records_are_warranted program [earlier]).1 request _ after deps name record ended
          (List.mem_singleton.2 rfl) (Table.find?_eq_some_of_mem member)
      refine ⟨deps, after, escaped, undone, ended, listed, escapedLevel, escapedCommon, undoneLevel,
        undoneRevoked, warranted _ _ ?_, warranted _ _ ?_⟩
      · simp [listed]
      · simp [listed]

end PhpTaint.Flow
