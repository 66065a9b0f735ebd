import PhpTaint.Findings.Search
import PhpTaint.Proofs.Flow.Widening

/-!
# Checked positions and unpacked arguments

The rules name the arguments of a sink by position, and the values at these positions
are checked. In a call of a declared function an argument that stands at a position goes
to the parameter at that position while nothing before it was unpacked, and an unpacked
argument goes to all parameters from its own position on. A sink reads positions in the
written call only: an unpacked argument that stands before a checked position supplies
it, but is not checked unless it stands at a checked position itself.
-/

namespace PhpTaint.Findings

open PhpTaint.Flow Json Rules Scopes Syntax

/-- Whether what an argument passes is unpacked. -/
def isUnpacked (argument : Node) : Bool :=
  match argument.argumentValue with
  | some value => value.kind = "variadic_unpacking"
  | none => false

/-- Whether the argument at an index can supply a position: it stands there and nothing
is unpacked before it, or it is unpacked itself and stands there or before. -/
structure Supplies (arguments : List Node) (position index : Nat) (argument : Node) : Prop where
  stands : arguments[index]? = some argument
  reaches : (index = position ∧ forall earlier, earlier ∈ arguments.take index ->
      isUnpacked earlier = false) ∨ (isUnpacked argument = true ∧ index <= position)

section Binding

variable {program : Program} {memory after : Memory} {trace : Node -> Tracing Deps}
  {summary : Summary} {table : Table String Deps} {items : List Node} {final : Bound}

/-- The next position is at most the number of the arguments before. -/
theorem position_le_of_bound
    (ended : items.foldlM (bindArgument trace summary) ⟨∅, 0⟩ program memory = .ok final after) :
    final.position <= items.length := by
  have counted := foldlM_bindArgument_kept (fun count next => next.position <= count)
    (fun count bound argument value deps _ _ within => ?_)
    (fun count bound argument _ _ within => Nat.le_succ_of_le within) 0 (Nat.le_refl 0) ended
  · rwa [Nat.zero_add] at counted
  · unfold Bound.bind
    dsimp only
    split
    · exact Nat.le_succ_of_le within
    · split
      · exact Nat.le_succ_of_le within
      · split
        · dsimp only
          split
          · exact Nat.le_succ_of_le within
          · exact Nat.succ_le_succ within
        · exact Nat.le_succ_of_le within

/-- Arguments that each pass one value advance the next position one by one, while there
are parameters and none of them is variadic. -/
theorem position_eq_of_bound
    (single : forall argument, argument ∈ items ->
      argument.argumentName = "" ∧ argument.argumentValue ≠ none ∧ isUnpacked argument = false)
    (plain : forall parameter, parameter ∈ summary.parameters.take items.length ->
      parameter.kind ≠ "variadic_parameter")
    (room : items.length <= summary.parameters.length)
    (ended : items.foldlM (bindArgument trace summary) ⟨∅, 0⟩ program memory = .ok final after) :
    final.position = items.length := by
  have counted := foldlM_bindArgument_kept
    (fun count next => count <= items.length -> next.position = count)
    (fun count bound argument value deps member passed reached within => ?_)
    (fun count bound argument member absent reached within => ?_) 0 (fun _ => rfl) ended
  · simpa using counted
  · obtain ⟨unnamed, -, whole⟩ := single argument member
    have notUnpacked : value.kind ≠ "variadic_unpacking" := by
      simpa [isUnpacked, passed] using whole
    have here : bound.position = count := reached (Nat.le_of_succ_le within)
    have inside : count < summary.parameters.length := Nat.lt_of_lt_of_le within room
    have notVariadic : summary.parameters[count].kind ≠ "variadic_parameter" :=
      plain _ (List.mem_take_iff_getElem.2 ⟨count, by omega, rfl⟩)
    simp [Bound.bind, unnamed, notUnpacked, here, List.getElem?_eq_getElem inside, notVariadic]
  · exact absurd absent (single argument member).2.1

/-- In a call without named arguments, what can supply a position is bound to the
parameter there, if no parameter before it is variadic. -/
theorem Supplies.keptAt {arguments : List Node} {position index : Nat} {argument : Node}
    (supplies : Supplies arguments position index argument) {name : String}
    (single : forall other, other ∈ arguments ->
      other.argumentName = "" ∧ other.argumentValue ≠ none)
    (declared : summary.parameterNames[position]? = some name)
    (plain : forall parameter, parameter ∈ summary.parameters.take position ->
      parameter.kind ≠ "variadic_parameter")
    (ended : bindArguments trace summary arguments program memory = .ok table after) :
    ∃ value before deps middle, argument.argumentValue = some value ∧
      trace value program before = .ok deps middle ∧ KeptAt table name deps := by
  obtain ⟨inside, atIndex⟩ := List.getElem?_eq_some_iff.1 supplies.stands
  have member : argument ∈ arguments := atIndex ▸ List.getElem_mem inside
  obtain ⟨unnamed, valued⟩ := single argument member
  obtain ⟨value, passed⟩ := Option.ne_none_iff_exists'.1 valued
  have counted : (arguments.take index).length = index := by
    rw [List.length_take, Nat.min_eq_left (Nat.le_of_lt inside)]
  have parts : arguments = arguments.take index ++ argument :: arguments.drop (index + 1) := by
    rw [← atIndex, ← List.drop_eq_getElem_cons inside, List.take_append_drop]
  rw [parts] at ended
  obtain ⟨bound, before, deps, middle, first, traced, widens⟩ := bindArguments_split passed ended
  refine ⟨value, before, deps, middle, passed, traced, KeptAt.widen ?_ widens⟩
  obtain ⟨room, named⟩ := List.getElem?_eq_some_iff.1 declared
  have bounded := position_le_of_bound first
  rw [counted] at bounded
  cases unpacked : isUnpacked argument with
  | true =>
      have isSpread : value.kind = "variadic_unpacking" := by
        simpa [isUnpacked, passed] using unpacked
      have within : index <= position := by
        rcases supplies.reaches with ⟨rfl, -⟩ | ⟨-, within⟩
        · exact Nat.le_refl _
        · exact within
      have listed : name ∈ summary.parameterNames.drop bound.position := by
        rw [List.mem_drop_iff_getElem]
        exact ⟨position - bound.position, by omega, by simp [← named]; congr 1; omega⟩
      simp only [Bound.bind, unnamed, bne_self_eq_false, Bool.false_eq_true, if_false, isSpread,
        if_true]
      exact .bindNames listed _ _
  | false =>
      obtain ⟨rfl, whole⟩ : index = position ∧ forall earlier, earlier ∈ arguments.take index ->
          isUnpacked earlier = false := by
        refine supplies.reaches.resolve_right fun spread => ?_
        rw [unpacked] at spread
        cases spread.1
      have room' : index < summary.parameters.length := by
        rwa [show summary.parameterNames.length = summary.parameters.length from
          List.length_map ..] at room
      have each : forall earlier, earlier ∈ arguments.take index -> earlier.argumentName = "" ∧
          earlier.argumentValue ≠ none ∧ isUnpacked earlier = false := by
        intro earlier listed
        obtain ⟨unnamed, valued⟩ := single earlier (List.mem_of_mem_take listed)
        exact ⟨unnamed, valued, whole earlier listed⟩
      have here : bound.position = index := by
        refine (position_eq_of_bound each ?_ ?_ first).trans counted
        · rwa [counted]
        · rw [counted]
          exact Nat.le_of_lt room'
      have notUnpacked : value.kind ≠ "variadic_unpacking" := by
        simpa [isUnpacked, passed] using unpacked
      have next : summary.parameters[index].parameterName = name := by
        rw [← named]
        exact (List.getElem_map ..).symm
      simp only [Bound.bind, unnamed, bne_self_eq_false, Bool.false_eq_true, if_false, notUnpacked,
        here, List.getElem?_eq_getElem room', next]
      exact .bindName _ _ _

end Binding

section Search

variable {rules : RuleSet} {node : Node} {sink : SinkRule}

theorem argumentAt_nat (arguments : List Node) (position : Nat) :
    argumentAt arguments (Value.nat position) = .ok arguments[position]? := by
  have reduced : argumentAt arguments (Value.nat position) =
      if (position : Int) < (arguments.length : Int) then
        (elementAt arguments (position : Int)).map some else .ok none := rfl
  rw [reduced]
  by_cases inside : position < arguments.length
  · have element : elementAt arguments (position : Int) = .ok arguments[position] := by
      simp only [elementAt, Int.not_lt.2 (Int.natCast_nonneg position), if_false, Int.toNat_natCast,
        List.getElem?_eq_getElem inside]
    rw [if_pos (Int.ofNat_lt.2 inside), element, List.getElem?_eq_getElem inside]
    rfl
  · rw [if_neg (fun below => inside (Int.ofNat_lt.1 below)),
      List.getElem?_eq_none (Nat.le_of_not_lt inside)]

/-- The arguments at listed positions are checked, in the order of the positions. -/
theorem checkedArguments_listed {positions : List Nat} (listed : sink.positions =
    .list (positions.map Value.nat)) (named : positions ≠ []) (arguments : List Node) :
    checkedArguments sink arguments =
      .ok (positions.filterMap fun position => arguments[position]?) := by
  have chosen (rest : List Nat) : (rest.map Value.nat).mapM (argumentAt arguments) =
      .ok (rest.map fun position => arguments[position]?) := by
    induction rest with
    | nil => rfl
    | cons position rest inductionHypothesis =>
        rw [List.map_cons, List.mapM_cons, argumentAt_nat, inductionHypothesis]
        rfl
  have present : (Value.list (positions.map Value.nat)).isPresent = true := by
    simpa [Value.isPresent] using named
  rw [checkedArguments, listed, if_pos present]
  show (((positions.map Value.nat).mapM (argumentAt arguments)) >>= fun chosen =>
    pure (chosen.filterMap id)) = _
  rw [chosen]
  show Except.ok _ = _
  rw [List.filterMap_map]
  rfl

/-- What a function with listed positions has checked at a call. -/
theorem sinkArguments_listed (isCall : node.kind = "function_call_expression")
    (known : rules.sink? node.calleeName = some sink) (isFunction : sink.kind.isText "function" = true)
    {positions : List Nat} (listed : sink.positions = .list (positions.map Value.nat))
    (named : positions ≠ []) :
    sinkArguments rules node = .ok ((positions.filterMap fun position =>
      node.arguments[position]?).map fun argument => (sink, argument.argumentValue)) := by
  have form : node.form = .call := by rw [Node.form, isCall]; rfl
  have construct : constructSink? node.kind = none := by rw [isCall]; rfl
  unfold sinkArguments
  rw [construct]
  simp only [form, ne_eq, not_true_eq_false, if_false, known, isFunction, if_true,
    checkedArguments_listed listed named]
  rfl

/-- Whether an argument stands at one of some positions, or passes what the argument at
one of them does. -/
def IsChosen (arguments : List Node) (positions : List Nat) (argument : Node) : Prop :=
  ∃ position, position ∈ positions ∧ ∃ other, arguments[position]? = some other ∧
    other.argumentValue = argument.argumentValue

/-- A function with listed positions has all arguments checked that can supply one of
them, if and only if every argument that is unpacked at one of them or before it stands
at one itself. -/
theorem sinkArguments_supplied_iff (isCall : node.kind = "function_call_expression")
    (known : rules.sink? node.calleeName = some sink) (isFunction : sink.kind.isText "function" = true)
    {positions : List Nat} (listed : sink.positions = .list (positions.map Value.nat))
    (named : positions ≠ []) :
    ∃ checked, sinkArguments rules node = .ok checked ∧
      ((forall position index argument, position ∈ positions ->
          Supplies node.arguments position index argument ->
            (sink, argument.argumentValue) ∈ checked) ↔
        forall position index argument, position ∈ positions ->
          node.arguments[index]? = some argument -> isUnpacked argument = true ->
            index <= position -> IsChosen node.arguments positions argument) := by
  refine ⟨_, sinkArguments_listed isCall known isFunction listed named, ?_⟩
  have checked_iff (argument : Node) : (sink, argument.argumentValue) ∈
      ((positions.filterMap fun position => node.arguments[position]?).map
        fun argument => (sink, argument.argumentValue)) ↔
      IsChosen node.arguments positions argument := by
    simp only [List.mem_map, List.mem_filterMap, Prod.mk.injEq, true_and, IsChosen]
    constructor
    · rintro ⟨other, ⟨position, member, stands⟩, same⟩
      exact ⟨position, member, other, stands, same⟩
    · rintro ⟨position, member, other, stands, same⟩
      exact ⟨other, ⟨position, member, stands⟩, same⟩
  simp only [checked_iff]
  constructor
  · intro all position index argument member stands unpacked within
    exact all position index argument member ⟨stands, Or.inr ⟨unpacked, within⟩⟩
  · rintro all position index argument member ⟨stands, ⟨rfl, -⟩ | ⟨unpacked, within⟩⟩
    · exact ⟨index, member, argument, stands, rfl⟩
    · exact all position index argument member stands unpacked within

end Search

/-- A sink of which the second argument is checked. -/
def querySink : SinkRule :=
  ⟨"query", .text "SQL_INJECTION", .text "CRITICAL", .list [.int 1], .text "CWE-89",
    .text "function", .null⟩

/-- Rules with one sink. -/
def queryRules : RuleSet :=
  { sources := ∅
    sinks := Table.empty.insert "query" querySink
    sanitizers := ∅
    reverses := ∅ }

/-- The unpacked argument in `queryFile`. -/
def unpackedInput : Tree :=
  .node "argument" true 15 23 "" [
    .node "variadic_unpacking" true 15 23 "" [.node "variable_name" true 18 23 "" []]]

/-- The call `query(1, ...$_GET)` in `queryFile`, or `query(...$_GET)` without the first
argument. -/
def queryCall (first : List Tree) : Tree :=
  .node "function_call_expression" true 6 24 "" [
    .node "name" true 6 11 "function" [],
    .node "arguments" true 11 24 "arguments" (first ++ [unpackedInput])]

/-- The file `<?php query(1, ...$_GET);`, or `<?php query(   ...$_GET);`. -/
def queryFile (code : String) (first : List Tree) : Node :=
  ⟨⟨"query.php", code.toUTF8⟩, .node "program" true 0 25 "" [
    .node "expression_statement" true 6 25 "" [queryCall first]]⟩

/-- The argument `1` in `queryFile`. -/
def firstArgument : Tree := .node "argument" true 12 13 "" [.node "integer" true 12 13 "" []]

/-- An unpacked argument at the checked position is checked. -/
theorem sinkArguments_supplied_iff_second :
    let file := queryFile "<?php query(1, ...$_GET);" [firstArgument]
    let node := file.withTree (queryCall [firstArgument])
    ∃ checked, sinkArguments queryRules node = .ok checked ∧
      Supplies node.arguments 1 1 (file.withTree unpackedInput) ∧
      (querySink, (file.withTree unpackedInput).argumentValue) ∈ checked := by
  intro file node
  have called : node.calleeName = "query" := by decide +kernel
  have known : queryRules.sink? node.calleeName = some querySink := by
    rw [called]
    rfl
  have listed : querySink.positions = .list ([1].map Value.nat) := rfl
  obtain ⟨checked, found, covers⟩ :=
    sinkArguments_supplied_iff rfl known rfl listed (List.cons_ne_nil _ _)
  have supplies : Supplies node.arguments 1 1 (file.withTree unpackedInput) :=
    ⟨rfl, Or.inr ⟨by decide, Nat.le_refl 1⟩⟩
  refine ⟨checked, found, supplies, covers.2 ?_ 1 1 _ (List.mem_singleton.2 rfl) supplies⟩
  -- the argument before the unpacked one passes a single value
  intro position index argument member stands unpacked within
  obtain rfl : position = 1 := List.mem_singleton.1 member
  cases index with
  | zero =>
      obtain rfl : file.withTree firstArgument = argument := Option.some.inj stands
      exact absurd unpacked (by decide)
  | succ before =>
      obtain rfl : before = 0 := by omega
      exact ⟨1, member, argument, stands, rfl⟩

/-- An unpacked argument before the checked position supplies it, but is not checked. -/
theorem sinkArguments_misses_unpacked :
    let file := queryFile "<?php query(   ...$_GET);" []
    let node := file.withTree (queryCall [])
    Supplies node.arguments 1 0 (file.withTree unpackedInput) ∧
      sinkArguments queryRules node = .ok [] := by
  intro file node
  have called : node.calleeName = "query" := by decide +kernel
  have known : queryRules.sink? node.calleeName = some querySink := by
    rw [called]
    rfl
  refine ⟨⟨rfl, Or.inr ⟨by decide, Nat.zero_le 1⟩⟩, ?_⟩
  have listed : querySink.positions = .list ([1].map Value.nat) := rfl
  rw [sinkArguments_listed rfl known rfl listed (List.cons_ne_nil _ _)]
  rfl

end PhpTaint.Findings
