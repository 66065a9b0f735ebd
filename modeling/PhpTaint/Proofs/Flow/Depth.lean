import Mathlib.Data.List.Perm.Subperm
import Mathlib.Logic.Relation
import PhpTaint.Proofs.Flow.Preservation

/-!
# How deeply flows are nested

A flow enters a function that is not being summarized, follows a definition that
is not being followed, falls back on a default value, or descends in an
expression. Each of these makes a number smaller, from left to right in this
order, and `rank` reads the four as the digits of one number. Tracing an
expression needs no more depth than its rank. Default values alone can repeat:
`NoDefaultCycle` excludes that, and is not needed where calls are not followed.
-/

namespace PhpTaint.Flow

open Scopes Syntax Rules

/-- Whether a node declares a function by name. -/
def declaresFunction (node : Node) : Bool := node.construct = .functionDefinition

/-- Whether a node is the default value of a parameter. -/
def isDefault (node : Node) : Bool := node.tree.label = "default_value"

/-- How many of the nodes that pass a test have a key that is not listed. -/
def countOpen (test : Node -> Bool) (nodes : List Node) (keys : List Key) : Nat :=
  nodes.countP fun node => test node && !keys.contains node.key

/-- A number with one digit for each way in which a flow gets on. -/
def rank (roots : List Node) (functions definitions defaults height : Nat) : Nat :=
  ((functions * ((nodesOf roots).countP isDefinition + 1) + definitions) *
    ((nodesOf roots).countP isDefault + 1) + defaults) *
    (Tree.heightAll (roots.map Node.tree) + 2) + height

/-- No expression is traced again on its own account. Parts are lower than what
they are parts of, so only default values could lead back. -/
def NoDefaultCycle (program : Program) (nodes : List Node) : Prop :=
  forall node, node ∈ nodes -> ¬ Relation.TransGen (FlowStep program nodes) node node

/-- The default values through which the trace of an expression has come since the
last definition. -/
structure DefaultPath (program : Program) (nodes seen : List Node) (node : Node) : Prop where
  distinct : seen.Nodup
  listed : forall value, value ∈ seen -> value ∈ nodes ∧ isDefault value = true
  reaches : forall value, value ∈ seen -> Relation.ReflTransGen (FlowStep program nodes) value node

section Counting

/-- A test that passes on all that another one passes on, and on more, counts more. -/
theorem countP_lt_countP {items : List Node} {small large : Node -> Bool} {item : Node}
    (included : forall node, small node = true -> large node = true) (member : item ∈ items)
    (more : large item = true) (less : small item = false) :
    items.countP small < items.countP large := by
  obtain ⟨before, after, rfl⟩ := List.append_of_mem member
  have first := List.countP_mono_left (l := before) fun node _ => included node
  have last := List.countP_mono_left (l := after) fun node _ => included node
  rw [List.countP_append, List.countP_append, List.countP_cons_of_pos more,
    List.countP_cons_of_neg (by simp [less])]
  omega

/-- No more nodes are open than there are. -/
theorem countOpen_le (test : Node -> Bool) (nodes : List Node) (keys : List Key) :
    countOpen test nodes keys <= nodes.countP test := by
  refine List.countP_mono_left fun node _ counted => ?_
  exact (Bool.and_eq_true_iff.1 counted).1

/-- One more key leaves fewer nodes open. -/
theorem countOpen_cons_lt {test : Node -> Bool} {nodes : List Node} {keys : List Key} {node : Node}
    (member : node ∈ nodes) (passes : test node = true) (fresh : node.key ∉ keys) :
    countOpen test nodes (node.key :: keys) < countOpen test nodes keys := by
  refine countP_lt_countP ?_ member ?_ ?_
  · intro other counted
    simp only [Bool.and_eq_true, List.contains_cons, Bool.not_eq_true', Bool.or_eq_false_iff]
      at counted ⊢
    exact ⟨counted.1, counted.2.2⟩
  · simp [passes, fresh]
  · simp

/-- Constructs are counted over the nodes of the files. -/
theorem countConstructs_eq (test : Tree -> Bool) (roots : List Node) :
    countConstructs test roots = (nodesOf roots).countP fun node => test node.tree := by
  unfold countConstructs nodesOf Node.preorder
  rw [List.countP_flatMap, List.countP_flatMap]
  congr 1
  refine List.map_congr_left fun root _ => ?_
  rw [Function.comp_apply, Function.comp_apply, List.countP_map]
  rfl

/-- The bound on the nesting of flows, by the nodes of the files. -/
theorem depthBound_eq (roots : List Node) :
    depthBound roots = ((nodesOf roots).countP declaresFunction + 2) *
      ((nodesOf roots).countP isDefinition + 1) * ((nodesOf roots).countP isDefault + 1) *
      (Tree.heightAll (roots.map Node.tree) + 2) := by
  unfold depthBound
  simp only [countConstructs_eq]
  rfl

end Counting

section Rank

variable {roots : List Node} {functions definitions defaults height : Nat}
  {fewer lower less shorter : Nat}

/-- A number with a smaller leading digit is smaller. -/
theorem digit_lt {high low base bound : Nat} (below : high < bound) (digit : low < base) :
    high * base + low < bound * base :=
  calc high * base + low < high * base + base := Nat.add_lt_add_left digit _
    _ = (high + 1) * base := (Nat.succ_mul high base).symm
    _ <= bound * base := Nat.mul_le_mul_right base below

/-- The rank falls when a part of an expression is traced. -/
theorem rank_lt_of_height (descends : shorter < height) :
    rank roots functions definitions defaults shorter <
      rank roots functions definitions defaults height :=
  Nat.add_lt_add_left descends _

/-- The rank falls when a default value is traced, whatever its height. -/
theorem rank_lt_of_defaults (falls : less < defaults)
    (high : shorter <= Tree.heightAll (roots.map Node.tree) + 1) :
    rank roots functions definitions less shorter <
      rank roots functions definitions defaults height :=
  Nat.lt_of_lt_of_le (digit_lt (Nat.add_lt_add_left falls _) (Nat.lt_succ_of_le high))
    (Nat.le_add_right _ _)

/-- The rank falls when a definition is followed, whatever its height. -/
theorem rank_lt_of_definitions (follows : lower < definitions)
    (few : less <= (nodesOf roots).countP isDefault)
    (high : shorter <= Tree.heightAll (roots.map Node.tree) + 1) :
    rank roots functions lower less shorter <
      rank roots functions definitions defaults height := by
  have digits := digit_lt (Nat.add_lt_add_left follows
    (functions * ((nodesOf roots).countP isDefinition + 1))) (Nat.lt_succ_of_le few)
  exact Nat.lt_of_lt_of_le
    (digit_lt (Nat.lt_of_lt_of_le digits (Nat.le_add_right _ _)) (Nat.lt_succ_of_le high))
    (Nat.le_add_right _ _)

/-- The rank falls when a function is entered, whatever is followed inside it. -/
theorem rank_lt_of_functions (enters : fewer < functions)
    (bounded : lower <= (nodesOf roots).countP isDefinition)
    (few : less <= (nodesOf roots).countP isDefault)
    (high : shorter <= Tree.heightAll (roots.map Node.tree) + 1) :
    rank roots fewer lower less shorter <
      rank roots functions definitions defaults height := by
  have digits := digit_lt enters (Nat.lt_succ_of_le bounded)
  have more := digit_lt (Nat.lt_of_lt_of_le digits (Nat.le_add_right _ definitions))
    (Nat.lt_succ_of_le few)
  exact Nat.lt_of_lt_of_le
    (digit_lt (Nat.lt_of_lt_of_le more (Nat.le_add_right _ _)) (Nat.lt_succ_of_le high))
    (Nat.le_add_right _ _)

/-- No flow has a rank that the bound does not exceed. -/
theorem rank_lt_depthBound (all : functions <= (nodesOf roots).countP declaresFunction)
    (bounded : definitions <= (nodesOf roots).countP isDefinition)
    (few : defaults <= (nodesOf roots).countP isDefault)
    (high : height <= Tree.heightAll (roots.map Node.tree) + 1) :
    rank roots functions definitions defaults height < depthBound roots := by
  rw [depthBound_eq]
  have first := digit_lt (Nat.lt_succ_of_le (Nat.le_succ_of_le all)) (Nat.lt_succ_of_le bounded)
  exact digit_lt (digit_lt first (Nat.lt_succ_of_le few)) (Nat.lt_succ_of_le high)

end Rank

namespace DefaultPath

variable {program : Program} {nodes seen : List Node} {node next value : Node}

/-- An expression is reached from itself through no default value. -/
theorem nil (node : Node) : DefaultPath program nodes [] node := by
  refine ⟨List.nodup_nil, ?_, ?_⟩
  · intro value member
    cases member
  · intro value member
    cases member

/-- Only finitely many default values can be passed. -/
theorem length_le (path : DefaultPath program nodes seen node) :
    seen.length <= nodes.countP isDefault := by
  have included : seen ⊆ nodes.filter isDefault := by
    intro value member
    exact List.mem_filter.2 (path.listed value member)
  rw [List.countP_eq_length_filter]
  exact (List.subperm_of_subset path.distinct included).length_le

/-- A flow that enters no function goes on with a path through default values. -/
theorem step (path : DefaultPath program nodes seen node)
    (flows : FlowStep program nodes node next) : DefaultPath program nodes seen next :=
  ⟨path.distinct, path.listed, fun value member => (path.reaches value member).tail flows⟩

/-- Falling back on a default value passes a new one. -/
theorem fallback (path : DefaultPath program nodes seen node)
    (acyclic : NoDefaultCycle program nodes) (flows : FlowStep program nodes node value)
    (member : value ∈ nodes) (labelled : isDefault value = true) :
    DefaultPath program nodes (value :: seen) value := by
  have fresh : value ∉ seen := by
    intro passed
    exact acyclic value member (.tail' (path.reaches value passed) flows)
  refine ⟨List.nodup_cons.2 ⟨fresh, path.distinct⟩, ?_, ?_⟩
  · intro other listed
    rcases List.mem_cons.1 listed with rfl | earlier
    · exact ⟨member, labelled⟩
    · exact path.listed other earlier
  · intro other listed
    rcases List.mem_cons.1 listed with rfl | earlier
    · exact .refl
    · exact (path.reaches other earlier).tail flows

end DefaultPath

/-- The rank of what a memory leaves open. -/
def Memory.rank (roots : List Node) (memory : Memory) (defaults height : Nat) : Nat :=
  Flow.rank roots (countOpen declaresFunction (nodesOf roots) memory.inProgress)
    (countOpen isDefinition (nodesOf roots) memory.tracer.active) defaults height

/-- A trace leaves the rank as it was. -/
theorem Kept.rank_eq {before after : Memory} (kept : Kept before after) (roots : List Node)
    (defaults height : Nat) :
    after.rank roots defaults height = before.rank roots defaults height := by
  unfold Memory.rank
  rw [kept.inProgress, kept.active]

/-- A memory that traces of nodes of the files have left behind, one after the
other, each with a fresh tracer and however it ended. -/
inductive Reached (program : Program) (nodes : List Node) : Memory -> Prop where
  /-- Nothing has been traced. -/
  | start : Reached program nodes Memory.start
  /-- One more trace has returned dependencies. -/
  | returned {before after : Memory} {node : Node} {result : Deps × Tracer}
      (earlier : Reached program nodes before) (member : node ∈ nodes) (parameters : List String)
      (followsCalls : Bool)
      (ended : withTracer (Tracer.fresh parameters followsCalls) (trace node) program before =
        .ok result after) : Reached program nodes after
  /-- One more trace has ended with a fault. -/
  | failed {before after : Memory} {node : Node} {fault : Fault}
      (earlier : Reached program nodes before) (member : node ∈ nodes) (parameters : List String)
      (followsCalls : Bool)
      (ended : withTracer (Tracer.fresh parameters followsCalls) (trace node) program before =
        .error fault after) : Reached program nodes after

section Runs

variable {roots : List Node} {program : Program} {memory : Memory} {node : Node} {depth : Nat}

/-- The traces that a node may start are safe if all traces are. -/
theorem SafeVisitor.of_all {faults : Fault -> Prop} {visitor : Visitor}
    (traces : forall node memory, node ∈ nodesOf roots -> Coherent (nodesOf roots) memory ->
      Safe (nodesOf roots) faults program memory (visitor.trace node))
    (follows : forall name definition memory, definition ∈ nodesOf roots ->
      isDefinition definition = true -> Coherent (nodesOf roots) memory ->
        Safe (nodesOf roots) faults program memory (visitor.definition name definition))
    (member : node ∈ nodesOf roots) :
    SafeVisitor (nodesOf roots) faults program memory node visitor where
  part := by
    intro part after inside _ coherent _
    exact traces part after (inside.occurs roots member) coherent
  definition := by
    intro name definition after member defines _ coherent _
    exact follows name definition _ member (isDefinition_of_mem_definedNames defines)
      (coherent.of_eq rfl rfl)
  body := by
    intro declaration part after _ declared _ _ inside coherent _ _ _
    exact traces part after (inside.occurs roots declared) coherent
  fallback := by
    intro declaration value after _ _ declared unfilled coherent _
    exact traces value after ((inside_of_mem_unfilledDefaults unfilled).occurs roots declared)
      coherent

/-- The faults of a trace: it goes too deep, or a node was not annotated. -/
def TraceFault (nodes : List Node) (program : Program) (fault : Fault) : Prop :=
  fault = .tooDeep ∨ Unannotated nodes program fault

/-- However deep it may go, a trace leaves everything in order. -/
theorem traceWithin_keeps (grounded : Grounded (nodesOf roots) program) (depth : Nat) :
    (forall node memory, node ∈ nodesOf roots -> Coherent (nodesOf roots) memory ->
      Safe (nodesOf roots) (TraceFault (nodesOf roots) program) program memory
        (traceWithin depth node)) ∧
    (forall name definition memory, definition ∈ nodesOf roots ->
      isDefinition definition = true -> Coherent (nodesOf roots) memory ->
      Safe (nodesOf roots) (TraceFault (nodesOf roots) program) program memory
        (definitionWithin depth name definition)) := by
  induction depth with
  | zero =>
      refine ⟨?_, ?_⟩
      · intro node memory _ coherent
        exact ⟨Or.inl rfl, coherent, Kept.refl memory⟩
      · intro name definition memory _ _ coherent
        exact ⟨Or.inl rfl, coherent, Kept.refl memory⟩
  | succ depth inductionHypothesis =>
      obtain ⟨traces, follows⟩ := inductionHypothesis
      refine ⟨?_, ?_⟩
      · intro node memory member coherent
        rw [traceWithin]
        exact traceNode_safe grounded (fun _ => Or.inr) coherent member (.of_all traces follows member)
      · intro name definition memory member defines coherent
        have visits : SafeVisitor (nodesOf roots) (TraceFault (nodesOf roots) program) program memory
          definition ⟨traceWithin depth, definitionWithin depth⟩ := .of_all traces follows member
        rw [definitionWithin]
        refine traceDefinition_safe grounded (fun _ => Or.inr) coherent defines
          (fun left start kept chosen =>
            (inside_of_formerVariable? kept chosen).occurs roots member) ?_ visits.definition
        intro part after inside coherent _
        exact traces part after (inside.occurs roots member) coherent

/-- A definition that is not being followed has a lower rank once it is. -/
theorem rank_activate_lt {definition : Node} (member : definition ∈ nodesOf roots)
    (defines : isDefinition definition = true) (inactive : definition.key ∉ memory.tracer.active)
    (defaults height : Nat) :
    (memory.activate definition.key).rank roots ((nodesOf roots).countP isDefault)
      (Tree.heightAll (roots.map Node.tree) + 1) < memory.rank roots defaults height :=
  rank_lt_of_definitions (countOpen_cons_lt member defines inactive) (Nat.le_refl _)
    (Nat.le_refl _)

/-- What is traced while one more summary is being built has a lower rank. -/
theorem rank_building_lt {declaration part : Node} {after : Memory}
    (declared : declaration ∈ nodesOf roots)
    (isFunction : declaration.construct = .functionDefinition)
    (idle : declaration.key ∉ memory.inProgress)
    (building : after.inProgress = declaration.key :: memory.inProgress)
    (member : part ∈ nodesOf roots) (defaults height : Nat) :
    after.rank roots ((nodesOf roots).countP isDefault) part.tree.height <
      memory.rank roots defaults height := by
  have declares : declaresFunction declaration = true := decide_eq_true isFunction
  refine rank_lt_of_functions ?_ (countOpen_le ..) (Nat.le_refl _)
    (Nat.le_succ_of_le (height_le_of_mem_nodesOf member))
  rw [building]
  exact countOpen_cons_lt declared declares idle

/-- A default value that is fallen back on has a lower rank, as long as no default
value leads back to itself. -/
theorem rank_fallback_lt {seen : List Node} {value : Node}
    (path : DefaultPath program (nodesOf roots) (value :: seen) value)
    (member : value ∈ nodesOf roots) (height : Nat) :
    memory.rank roots ((nodesOf roots).countP isDefault - (value :: seen).length)
        value.tree.height <
      memory.rank roots ((nodesOf roots).countP isDefault - seen.length) height := by
  refine rank_lt_of_defaults ?_ (Nat.le_succ_of_le (height_le_of_mem_nodesOf member))
  have room := path.length_le
  rw [List.length_cons] at room ⊢
  omega

/-- The traces whose rank is below a number do not go too deep: their only faults are
those of nodes that were not annotated. -/
structure SafeBelow (program : Program) (roots : List Node) (visitor : Visitor) (bound : Nat) :
    Prop where
  trace : forall node memory seen, node ∈ nodesOf roots -> Coherent (nodesOf roots) memory ->
    (memory.tracer.followsCalls = true -> NoDefaultCycle program (nodesOf roots) ∧
      DefaultPath program (nodesOf roots) seen node) ->
    memory.rank roots ((nodesOf roots).countP isDefault - seen.length) node.tree.height < bound ->
      Safe (nodesOf roots) (Unannotated (nodesOf roots) program) program memory (visitor.trace node)
  definition : forall name definition memory, definition ∈ nodesOf roots ->
    isDefinition definition = true -> Coherent (nodesOf roots) memory ->
    (memory.tracer.followsCalls = true -> NoDefaultCycle program (nodesOf roots)) ->
    memory.rank roots ((nodesOf roots).countP isDefault)
      (Tree.heightAll (roots.map Node.tree) + 1) < bound ->
      Safe (nodesOf roots) (Unannotated (nodesOf roots) program) program memory
        (visitor.definition name definition)

namespace SafeBelow

variable {visitor : Visitor} {bound : Nat}

/-- The definitions that are not being followed are traced safely. -/
theorem definitions (safe : SafeBelow program roots visitor bound) {defaults height : Nat}
    (acyclic : memory.tracer.followsCalls = true -> NoDefaultCycle program (nodesOf roots))
    (low : memory.rank roots defaults height < bound + 1) :
    SafeDefinitions (nodesOf roots) (Unannotated (nodesOf roots) program) program memory
      visitor.definition := by
  intro name definition after member defines inactive coherent kept
  have isDefined := isDefinition_of_mem_definedNames defines
  refine safe.definition name definition _ member isDefined (coherent.of_eq rfl rfl) ?_ ?_
  · intro followsCalls
    exact acyclic (kept.followsCalls.symm.trans followsCalls)
  · rw [← kept.active] at inactive
    have lower := rank_activate_lt member isDefined inactive defaults height
    rw [kept.rank_eq] at lower
    omega

/-- The traces that a node starts have a lower rank than its own. -/
theorem visits (safe : SafeBelow program roots visitor bound) {seen : List Node}
    (member : node ∈ nodesOf roots)
    (path : memory.tracer.followsCalls = true -> NoDefaultCycle program (nodesOf roots) ∧
      DefaultPath program (nodesOf roots) seen node)
    (low : memory.rank roots ((nodesOf roots).countP isDefault - seen.length) node.tree.height <
      bound + 1) :
    SafeVisitor (nodesOf roots) (Unannotated (nodesOf roots) program) program memory node
      visitor where
  definition := safe.definitions (fun calls => (path calls).1) low
  part := by
    intro part after inside flows coherent kept
    refine safe.trace part after seen (inside.occurs roots member) coherent ?_ ?_
    · intro calls
      rw [kept.followsCalls] at calls
      exact ⟨(path calls).1, (path calls).2.step (flows calls)⟩
    · rw [kept.rank_eq]
      exact Nat.lt_of_lt_of_le (rank_lt_of_height inside.lower) (Nat.le_of_lt_succ low)
  body := by
    intro declaration part after calls declared isFunction idle inside coherent building _ _
    have partMember := inside.occurs roots declared
    refine safe.trace part after [] partMember coherent (fun _ => ⟨(path calls).1, .nil part⟩) ?_
    rw [List.length_nil, Nat.sub_zero]
    exact Nat.lt_of_lt_of_le (rank_building_lt declared isFunction idle building partMember _ _)
      (Nat.le_of_lt_succ low)
  fallback := by
    intro declaration value after calls flows declared unfilled coherent kept
    have valueMember := (inside_of_mem_unfilledDefaults unfilled).occurs roots declared
    have labelled : isDefault value = true :=
      decide_eq_true (label_of_mem_unfilledDefaults unfilled)
    have further := (path calls).2.fallback (path calls).1 flows valueMember labelled
    refine safe.trace value after (value :: seen) valueMember coherent
      (fun _ => ⟨(path calls).1, further⟩) ?_
    rw [kept.rank_eq]
    exact Nat.lt_of_lt_of_le (rank_fallback_lt further valueMember _) (Nat.le_of_lt_succ low)

end SafeBelow

/-- A trace whose rank is below the depth does not go too deep. -/
theorem traceWithin_safe (grounded : Grounded (nodesOf roots) program) (depth : Nat) :
    SafeBelow program roots (visitor depth) depth := by
  induction depth with
  | zero =>
      refine ⟨?_, ?_⟩
      · intro node memory seen _ _ _ low
        exact absurd low (Nat.not_lt_zero _)
      · intro name definition memory _ _ _ _ low
        exact absurd low (Nat.not_lt_zero _)
  | succ depth inductionHypothesis =>
      refine ⟨?_, ?_⟩
      · intro node memory seen member coherent path low
        show Safe _ _ program memory (traceWithin (depth + 1) node)
        rw [traceWithin]
        exact traceNode_safe grounded (fun _ holds => holds) coherent member
          (inductionHypothesis.visits member path low)
      · intro name definition memory member defines coherent acyclic low
        show Safe _ _ program memory (definitionWithin (depth + 1) name definition)
        rw [definitionWithin]
        refine traceDefinition_safe grounded (fun _ holds => holds) coherent defines
          (fun left start kept chosen =>
            (inside_of_formerVariable? kept chosen).occurs roots member)
          ?_ (inductionHypothesis.definitions acyclic low)
        intro part after inside coherent kept
        have partMember := inside.occurs roots member
        refine inductionHypothesis.trace part after [] partMember coherent ?_ ?_
        · intro calls
          exact ⟨acyclic (kept.followsCalls.symm.trans calls), .nil part⟩
        · rw [kept.rank_eq, List.length_nil, Nat.sub_zero]
          have lower := height_le_of_mem_nodesOf partMember
          exact Nat.lt_of_lt_of_le (rank_lt_of_height (Nat.lt_succ_of_le lower))
            (Nat.le_of_lt_succ low)

/-- The bound of the program is deep enough for every node of its files. -/
theorem trace_safe (grounded : Grounded (nodesOf roots) program)
    (bound : program.depth = depthBound roots) (member : node ∈ nodesOf roots)
    (coherent : Coherent (nodesOf roots) memory)
    (acyclic : memory.tracer.followsCalls = true -> NoDefaultCycle program (nodesOf roots)) :
    Safe (nodesOf roots) (Unannotated (nodesOf roots) program) program memory (trace node) := by
  show Safe (nodesOf roots) (Unannotated (nodesOf roots) program) program memory
    (traceWithin program.depth node)
  refine (traceWithin_safe grounded program.depth).trace node memory [] member coherent
    (fun calls => ⟨acyclic calls, .nil node⟩) ?_
  rw [bound]
  exact rank_lt_depthBound (countOpen_le ..) (countOpen_le ..) (Nat.sub_le ..)
    (Nat.le_succ_of_le (height_le_of_mem_nodesOf member))

/-- Whatever was traced before, the memory is in order and no summary is being
built. -/
theorem Reached.coherent (grounded : Grounded (nodesOf roots) program)
    (reached : Reached program (nodesOf roots) memory) :
    Coherent (nodesOf roots) memory ∧ memory.inProgress = [] := by
  have traced : forall before, Coherent (nodesOf roots) before -> before.inProgress = [] ->
      forall node, node ∈ nodesOf roots -> forall parameters followsCalls,
      Concludes program before (withTracer (Tracer.fresh parameters followsCalls) (trace node))
        (fun _ after => Coherent (nodesOf roots) after ∧ after.inProgress = [])
        (fun _ after => Coherent (nodesOf roots) after ∧ after.inProgress = []) := by
    intro before coherent idle node member parameters followsCalls
    refine (Concludes.withTracer_iff _ _).2 ?_
    refine Concludes.mono ((traceWithin_keeps grounded program.depth).1 node _ member
      (coherent.fresh parameters followsCalls)) ?_ ?_
    · rintro deps after ⟨_, learned, kept⟩
      exact ⟨learned.withTracer coherent, kept.inProgress.trans idle⟩
    · rintro fault after ⟨_, learned, kept⟩
      exact ⟨learned.withTracer coherent, kept.inProgress.trans idle⟩
  induction reached with
  | start => exact ⟨.start _, rfl⟩
  | returned _ member parameters followsCalls ended inductionHypothesis =>
      exact (traced _ inductionHypothesis.1 inductionHypothesis.2 _ member parameters
        followsCalls).of_ok ended
  | failed _ member parameters followsCalls ended inductionHypothesis =>
      exact (traced _ inductionHypothesis.1 inductionHypothesis.2 _ member parameters
        followsCalls).of_error ended

end Runs

end PhpTaint.Flow
