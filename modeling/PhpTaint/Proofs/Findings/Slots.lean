import PhpTaint.Proofs.Findings.Suppression
import PhpTaint.Proofs.Flow.Notes

/-!
# One finding for each line and sink

The checks of one file compete for slots: a slot is a line and a sink, and one finding
is kept for it. `survey` goes through the files as a search does and keeps what every
check has found. A search reports of each file the first candidate of every slot, which
is the strongest one only if no later candidate of the slot is stronger.

Two surveys of the same files that differ in whether unknown values are reported differ
in their notes and candidates only. Every candidate of the stricter one has a candidate
for the same slot in the other one.
-/

namespace PhpTaint.Findings

open PhpTaint.Flow Json Rules Scopes Syntax

/-! ## Slots -/

namespace Finding

/-- The line and the sink of a finding. -/
def slot (finding : Finding) : Nat × String := (finding.line, finding.sink)

/-- A finding is at least as strong as another one: its taint is as high, and it is as
sure. -/
structure AtLeast (finding other : Finding) : Prop where
  level : other.level.rank <= finding.level.rank
  confidence : other.confidence = .high -> finding.confidence = .high

end Finding

/-- The findings that are kept of some candidates. -/
def kept (candidates : List Finding) : List Finding := candidates.foldl addFinding []

/-- A candidate is kept unless another one has taken its slot. -/
theorem addFinding_eq (findings : List Finding) (finding : Finding) :
    addFinding findings finding =
      if findings.any fun other => other.slot = finding.slot then findings
      else findings ++ [finding] := by
  unfold addFinding Finding.slot
  simp [Bool.beq_eq_decide_eq]

/-- Of every slot the first candidate is kept, and no other. -/
theorem filter_kept (candidates : List Finding) (slot : Nat × String) :
    ((kept candidates).filter fun other => other.slot = slot) =
      (candidates.find? fun other => other.slot = slot).toList := by
  induction candidates using List.reverseRecOn generalizing slot with
  | nil => rfl
  | append_singleton candidates last inductionHypothesis =>
      have step : kept (candidates ++ [last]) = addFinding (kept candidates) last :=
        List.foldl_concat ..
      rw [step, addFinding_eq, List.find?_append]
      have here := inductionHypothesis last.slot
      cases found : candidates.find? fun other => other.slot = last.slot with
      | some first =>
          rw [found] at here
          have member : first ∈ (kept candidates).filter fun other => other.slot = last.slot := by
            rw [here]
            exact List.mem_singleton.2 rfl
          obtain ⟨listed, same⟩ := List.mem_filter.1 member
          rw [if_pos (List.any_eq_true.2 ⟨first, listed, same⟩), inductionHypothesis]
          by_cases own : last.slot = slot
          · rw [← own, found]
            rfl
          · simp [own]
      | none =>
          rw [found] at here
          have absent : ¬ ((kept candidates).any fun other => other.slot = last.slot) = true := by
            intro present
            obtain ⟨other, listed, same⟩ := List.any_eq_true.1 present
            exact List.filter_eq_nil_iff.1 here other listed same
          rw [if_neg absent, List.filter_append, inductionHypothesis]
          by_cases own : last.slot = slot
          · rw [← own, found]
            simp
          · simp [own]

/-! ## Surveys -/

/-- What the checks at one node find, in their order. -/
def candidatesAt (includeUnknown : Bool) (node : Node) : Tracing (List Finding) := do
  let program ← read
  let arguments ← orFault (sinkArguments program.rules node)
  let found ← arguments.mapM fun (sink, argument) => checkArgument includeUnknown node sink argument
  return found.filterMap id

/-- What the checks in one file find, in their order. -/
def candidatesIn (includeUnknown : Bool) (root : Node) : Tracing (List Finding) := do
  let found ← root.descendants.mapM (candidatesAt includeUnknown)
  return found.flatten

/-- A file that was searched to its end. -/
structure Scan where
  file : Node
  /-- What the checks in it have found. -/
  candidates : List Finding

/-- What a search reports of a file. -/
def Scan.reported (scan : Scan) : List Finding := kept scan.candidates

/-- What a survey has come to. -/
structure Survey where
  scans : List Scan
  memory : Memory

/-- Survey one file. -/
def surveyInto (includeUnknown : Bool) (program : Program) (root : Node) :
    EStateM Fault Survey Unit := fun survey =>
  match candidatesIn includeUnknown root program survey.memory with
  | .ok candidates memory => .ok () ⟨survey.scans ++ [⟨root, candidates⟩], memory⟩
  | .error fault memory =>
      if fault.isStructural then
        let noted := { memory with
          journal := ⟨.error, .findings, skipMessage root.file fault⟩ :: memory.journal }
        .ok () { survey with memory := noted }
      else .error fault { survey with memory := memory }

/-- Survey files that share one global scope. -/
def survey (rules : RuleSet) (includeUnknown : Bool) (errors : List (String × String))
    (journal : Journal) (roots : List Node) : Except Fault (List Scan) :=
  let start := Annotation.Annotator.start
  let noted := { start with registry := { start.registry with journal := journal } }
  match roots.forM takeIn ⟨noted, [], errors⟩ with
  | .error fault _ => .error fault
  | .ok _ intake =>
      let program := Program.ofAnnotated intake.annotator rules roots
      let memory := { Memory.start with journal := intake.annotator.registry.journal }
      match intake.accepted.forM (surveyInto includeUnknown program) ⟨[], memory⟩ with
      | .error fault _ => .error fault
      | .ok _ survey => .ok survey.scans

section Survey

variable {includeUnknown : Bool} {program : Program}

/-- A search adds the candidates at a node one after the other. -/
theorem searchNode_eq (findings : List Finding) (node : Node) :
    searchNode includeUnknown findings node =
      (fun candidates => candidates.foldl addFinding findings) <$>
        candidatesAt includeUnknown node := by
  let add (current : List Finding) (found : Option Finding) : List Finding :=
    found.elim current (addFinding current)
  have added : forall found : List (Option Finding), found.foldl add findings =
      (found.filterMap id).foldl addFinding findings := by
    intro found
    rw [List.foldl_filterMap]
    refine congrArg (fun step => found.foldl step findings) (funext₂ fun current item => ?_)
    cases item <;> rfl
  unfold searchNode candidatesAt
  simp only [map_bind, map_pure]
  refine bind_congr fun program => bind_congr fun arguments => ?_
  rw [Outcome.foldlM_eq_mapM (fun pair : SinkRule × Option Node =>
    checkArgument includeUnknown node pair.1 pair.2) add, map_eq_pure_bind]
  · exact bind_congr fun found => congrArg pure (added found)
  · intro current pair
    rw [map_eq_pure_bind]
    refine bind_congr fun found => ?_
    cases found <;> rfl

/-- A search of a file keeps the first candidate of each slot. -/
theorem searchProgram_eq (root : Node) :
    searchProgram includeUnknown root = kept <$> candidatesIn includeUnknown root := by
  unfold searchProgram candidatesIn kept
  rw [Outcome.foldlM_eq_mapM _ _ searchNode_eq]
  simp only [map_eq_pure_bind, bind_assoc, pure_bind, List.foldl_flatten]

/-- A search stands where a survey stands. -/
structure Progress.Reports (progress : Progress) (survey : Survey) : Prop where
  findings : progress.findings = survey.scans.flatMap Scan.reported
  memory : progress.memory = survey.memory

/-- A search of a file reports what a survey of it would. -/
theorem searchInto_tandem_surveyInto (includeUnknown : Bool) (program : Program) (root : Node) :
    Tandem Progress.Reports Eq (searchInto includeUnknown program root)
      (surveyInto includeUnknown program root) := by
  intro progress survey before
  unfold searchInto surveyInto
  rw [searchProgram_eq, map_eq_pure_bind, run_bind, before.memory]
  cases candidatesIn includeUnknown root program survey.memory with
  | ok candidates memory =>
      refine .ok rfl ⟨?_, rfl⟩
      simp [before.findings, Scan.reported]
  | error fault memory =>
      by_cases structural : fault.isStructural = true
      · simp only [if_pos structural]
        exact .ok rfl ⟨before.findings, rfl⟩
      · simp only [if_neg structural]
        exact .error fault ⟨before.findings, rfl⟩

/-- A search reports what a survey finds, one finding for each slot of a file. -/
theorem search_eq_survey (rules : RuleSet) (errors : List (String × String)) (journal : Journal)
    (roots : List Node) :
    (search rules includeUnknown errors journal roots).findings =
      (survey rules includeUnknown errors journal roots).map
        fun scans => scans.flatMap Scan.reported := by
  unfold search survey
  dsimp only
  cases roots.forM takeIn _ with
  | error fault intake => rfl
  | ok _ intake =>
      have ended := Tandem.forM (fun root (_ : root ∈ intake.accepted) =>
        searchInto_tandem_surveyInto includeUnknown
          (Program.ofAnnotated intake.annotator rules roots) root)
        ⟨[], intake.errors, { Memory.start with journal := intake.annotator.registry.journal }⟩
        ⟨[], { Memory.start with journal := intake.annotator.registry.journal }⟩ ⟨rfl, rfl⟩
      dsimp only
      generalize (intake.accepted.forM (searchInto includeUnknown _) :
        EStateM Fault Progress PUnit) _ = outcome at ended ⊢
      generalize (intake.accepted.forM (surveyInto includeUnknown _) :
        EStateM Fault Survey PUnit) _ = other at ended ⊢
      cases ended with
      | ok _ after => exact congrArg Except.ok after.findings
      | error fault after => rfl

end Survey

/-! ## With and without unknown values -/

section Unknown

variable {σ τ α β γ δ ι : Type} {states : σ -> τ -> Prop} {values : α -> β -> Prop}
  {results : γ -> δ -> Prop}

/-- From related states two steps end alike, unless the second one stops at an ill-typed
rule. -/
def Bolder (states : σ -> τ -> Prop) (values : α -> β -> Prop) (left : EStateM Fault σ α)
    (right : EStateM Fault τ β) : Prop :=
  forall first second, states first second ->
    EndAlike states values (left first) (right second) ∨
      ∃ after, right second = .error .illTyped after

namespace Bolder

/-- Steps that end alike do so whether or not the second one may stop. -/
theorem of_tandem {left : EStateM Fault σ α} {right : EStateM Fault τ β}
    (tandem : Tandem states values left right) : Bolder states values left right :=
  fun first second related => Or.inl (tandem first second related)

/-- The second side may stop in either of two steps. -/
theorem bind {left : EStateM Fault σ α} {right : EStateM Fault τ β}
    {leftNext : α -> EStateM Fault σ γ} {rightNext : β -> EStateM Fault τ δ}
    (step : Bolder states values left right)
    (continues : forall first second, values first second ->
      Bolder states results (leftNext first) (rightNext second)) :
    Bolder states results (left >>= leftNext) (right >>= rightNext) := by
  intro first second related
  show EndAlike states results (EStateM.bind left leftNext first)
      (EStateM.bind right rightNext second) ∨
    ∃ after, EStateM.bind right rightNext second = .error .illTyped after
  unfold EStateM.bind
  rcases step first second related with ended | ⟨after, stopped⟩
  · generalize left first = outcome at ended
    generalize right second = other at ended
    cases ended with
    | ok answers after => exact continues _ _ answers _ _ after
    | error fault after => exact Or.inl (.error fault after)
  · rw [stopped]
    exact Or.inr ⟨after, rfl⟩

/-- The second side may stop at any entry of a list. -/
theorem foldlM {states : Memory -> Memory -> Prop} {program : Program}
    {left : α -> ι -> Tracing α} {right : β -> ι -> Tracing β}
    (each : forall item first second, values first second ->
      Bolder states values (left first item program) (right second item program))
    (items : List ι) {first : α} {second : β} (start : values first second) :
    Bolder states values (items.foldlM left first program)
      (items.foldlM right second program) := by
  induction items generalizing first second with
  | nil => exact of_tandem (Tandem.pure start)
  | cons item rest inductionHypothesis =>
      rw [List.foldlM_cons, List.foldlM_cons]
      exact (each item first second start).bind fun _ _ => inductionHypothesis

/-- The second side may stop at any entry, and the values before it are related. -/
theorem mapM {states : Memory -> Memory -> Prop} {program : Program} {left : ι -> Tracing α}
    {right : ι -> Tracing β}
    (each : forall item, Bolder states values (left item program) (right item program))
    (items : List ι) :
    Bolder states (List.Forall₂ values) (items.mapM left program)
      (items.mapM right program) := by
  induction items with
  | nil => exact of_tandem (Tandem.pure .nil)
  | cons item rest inductionHypothesis =>
      rw [List.mapM_cons, List.mapM_cons]
      exact (each item).bind fun _ _ related => inductionHypothesis.bind fun _ _ others =>
        of_tandem (Tandem.pure (.cons related others))

theorem forM {left : ι -> EStateM Fault σ PUnit} {right : ι -> EStateM Fault τ PUnit}
    (each : forall item, Bolder states Eq (left item) (right item)) (items : List ι) :
    Bolder states Eq (items.forM left) (items.forM right) := by
  induction items with
  | nil => exact of_tandem (Tandem.pure rfl)
  | cons item rest inductionHypothesis =>
      exact (each item).bind fun _ _ _ => inductionHypothesis

end Bolder

end Unknown

section Flags

variable {program : Program}

/-- One tainted level among others makes the whole tainted. -/
theorem joinAll_eq_tainted {levels : List Level} (listed : .tainted ∈ levels) :
    Level.joinAll levels = .tainted := by
  suffices folded : forall start : Level, start = .tainted ∨ .tainted ∈ levels ->
      levels.foldl Level.join start = .tainted from folded _ (Or.inr listed)
  clear listed
  induction levels with
  | nil => simp
  | cons level rest inductionHypothesis =>
      intro start reached
      refine inductionHypothesis _ ?_
      rcases reached with rfl | listed
      · cases level <;> exact Or.inl rfl
      · rcases List.mem_cons.1 listed with rfl | later
        · cases start <;> exact Or.inl rfl
        · exact Or.inr later

/-- How a leaf is judged. -/
theorem run_judgeLeaf (includeUnknown : Bool) (node : Node) (sink : SinkRule) (verdict : Verdict)
    (record : LeafRecord) (memory : Memory) :
    judgeLeaf includeUnknown node sink verdict record program memory =
      if isReported includeUnknown record.level then
        match protectionOf program.rules sink.vulnerability record.common with
        | .error fault => .error fault memory
        | .ok .strong => .ok verdict { memory with
            journal := ⟨.debug, .findings, sink.name ++ " at line " ++ toString node.line ++ ": " ++
              record.name ++ " sanitized by " ++ Text.quotedList record.common.toList⟩ ::
                memory.journal }
        | .ok protection => .ok
            { reported := verdict.reported ++ [record]
              confidence :=
                if record.level = .tainted && protection = .absent then .high
                else verdict.confidence } memory
      else .ok verdict memory := by
  unfold judgeLeaf
  cases isReported includeUnknown record.level with
  | false => rfl
  | true =>
      show ((orFault (protectionOf program.rules sink.vulnerability record.common) >>= _ :
        Tracing Verdict) program memory) = _
      rw [run_bind]
      cases protectionOf program.rules sink.vulnerability record.common with
      | error fault => rfl
      | ok protection => cases protection <;> rfl

/-- What is reported without unknown values is tainted, and reported with them. -/
def Verdict.Within (quiet loud : Verdict) : Prop :=
  forall record, record ∈ quiet.reported -> record.level = .tainted ∧ record ∈ loud.reported

/-- A leaf that is reported without unknown values is reported with them. -/
theorem judgeLeaf_bolder (node : Node) (sink : SinkRule) (record : LeafRecord)
    (quiet loud : Verdict) (within : quiet.Within loud) :
    Bolder Memory.Alike Verdict.Within (judgeLeaf false node sink quiet record program)
      (judgeLeaf true node sink loud record program) := by
  intro first second alike
  have noted : forall note, Memory.Alike first
      { second with journal := note :: second.journal } :=
    fun _ => ⟨alike.tracer, alike.summaries, alike.inProgress⟩
  have widened : forall confidence,
      quiet.Within { reported := loud.reported ++ [record], confidence := confidence } :=
    fun _ other listed => ⟨(within other listed).1, List.mem_append_left _ (within other listed).2⟩
  rw [run_judgeLeaf, run_judgeLeaf]
  cases level : record.level with
  | unassigned => exact Or.inl (.ok within alike)
  | unknown =>
      -- Only the run with unknown values asks for the protection of this leaf.
      simp only [isReported, Bool.false_eq_true, if_false, if_true]
      rcases protectionOf_cases program.rules sink.vulnerability record.common with
        ⟨protection, known, _⟩ | ⟨unknown, _⟩
      · rw [known]
        cases protection with
        | strong => exact Or.inl (.ok within (noted _))
        | weak => exact Or.inl (.ok (widened _) alike)
        | absent => exact Or.inl (.ok (widened _) alike)
      · rw [unknown]
        exact Or.inr ⟨second, rfl⟩
  | tainted =>
      have added : forall confidence other, Verdict.Within
          { reported := quiet.reported ++ [record], confidence := confidence }
          { reported := loud.reported ++ [record], confidence := other } := by
        intro _ _ another listed
        rcases List.mem_append.1 listed with earlier | last
        · exact ⟨(within another earlier).1, List.mem_append_left _ (within another earlier).2⟩
        · obtain rfl := List.mem_singleton.1 last
          exact ⟨level, List.mem_append_right _ last⟩
      simp only [isReported, if_true]
      cases protectionOf program.rules sink.vulnerability record.common with
      | error fault => exact Or.inl (.error fault alike)
      | ok protection =>
          cases protection with
          | strong =>
              exact Or.inl (.ok within ⟨alike.tracer, alike.summaries, alike.inProgress⟩)
          | weak => exact Or.inl (.ok (added _ _) alike)
          | absent => exact Or.inl (.ok (added _ _) alike)

/-- A finding has a tainted one beside it, for the same slot. -/
def Finding.Echoed (finding other : Finding) : Prop :=
  other.slot = finding.slot ∧ other.level = .tainted

/-- Every candidate of the first list is echoed in the second one. -/
def Echoes (quiet loud : List Finding) : Prop :=
  forall finding, finding ∈ quiet -> ∃ other, other ∈ loud ∧ finding.Echoed other

/-- A finding about an argument without unknown values is echoed with them. -/
theorem checkArgument_bolder (program : Program) (node : Node) (sink : SinkRule) (argument : Option Node) :
    Bolder Memory.Alike (fun quiet loud => Echoes quiet.toList loud.toList)
      (checkArgument false node sink argument program)
      (checkArgument true node sink argument program) := by
  unfold checkArgument
  cases argument with
  | none => exact .of_tandem (Tandem.pure (by simp [Echoes]))
  | some expression =>
      refine (Bolder.of_tandem (traceInPlace_unread expression)).bind ?_
      rintro deps _ rfl
      have start : Verdict.Within ⟨[], .low⟩ ⟨[], .low⟩ := by simp [Verdict.Within]
      refine (Bolder.foldlM (fun record => judgeLeaf_bolder node sink record) deps.values
        start).bind ?_
      intro quiet loud within
      by_cases nothing : quiet.reported = []
      · simp only [nothing, List.isEmpty_nil, if_true]
        split <;> exact .of_tandem (Tandem.pure (by simp [Echoes]))
      · obtain ⟨record, listed⟩ := List.exists_mem_of_ne_nil _ nothing
        obtain ⟨level, reported⟩ := within record listed
        simp only [List.isEmpty_iff, nothing, List.ne_nil_of_mem reported, if_false]
        refine .of_tandem (Tandem.pure fun finding found => ⟨_, List.mem_singleton.2 rfl, ?_⟩)
        obtain rfl := List.mem_singleton.1 found
        exact ⟨rfl, joinAll_eq_tainted (List.mem_map.2 ⟨record, reported, level⟩)⟩

/-- Echoes in the parts are echoes in the whole. -/
theorem Echoes.flatten {quiet loud : List (List Finding)} (each : List.Forall₂ Echoes quiet loud) :
    Echoes quiet.flatten loud.flatten := by
  induction each with
  | nil => exact fun _ listed => absurd listed List.not_mem_nil
  | cons head _ inductionHypothesis =>
      intro finding listed
      rw [List.flatten_cons] at listed ⊢
      rcases List.mem_append.1 listed with here | later
      · obtain ⟨other, found, echoed⟩ := head finding here
        exact ⟨other, List.mem_append_left _ found, echoed⟩
      · obtain ⟨other, found, echoed⟩ := inductionHypothesis finding later
        exact ⟨other, List.mem_append_right _ found, echoed⟩

/-- The candidates at a node without unknown values are echoed with them. -/
theorem candidatesAt_bolder (node : Node) :
    Bolder Memory.Alike Echoes (candidatesAt false node program)
      (candidatesAt true node program) := by
  unfold candidatesAt
  refine (Bolder.of_tandem (Unread.orFault (sinkArguments program.rules node))).bind ?_
  rintro arguments _ rfl
  refine (Bolder.mapM (fun pair : SinkRule × Option Node =>
    checkArgument_bolder program node pair.1 pair.2) arguments).bind ?_
  intro quiet loud each
  refine .of_tandem (Tandem.pure ?_)
  have flat : forall found : List (Option Finding), found.filterMap id =
      (found.map Option.toList).flatten := by
    intro found
    induction found with
    | nil => rfl
    | cons head rest inductionHypothesis => cases head <;> simpa using inductionHypothesis
  rw [flat, flat]
  exact Echoes.flatten (List.forall₂_map_left_iff.2 (List.forall₂_map_right_iff.2 each))

/-- The candidates in a file without unknown values are echoed with them. -/
theorem candidatesIn_bolder (root : Node) :
    Bolder Memory.Alike Echoes (candidatesIn false root program)
      (candidatesIn true root program) := by
  unfold candidatesIn
  exact (Bolder.mapM candidatesAt_bolder root.descendants).bind fun _ _ each =>
    .of_tandem (Tandem.pure (Echoes.flatten each))

/-- A file in a survey without unknown values and in one with them. -/
structure Scan.Echoed (quiet loud : Scan) : Prop where
  file : loud.file = quiet.file
  candidates : Echoes quiet.candidates loud.candidates

/-- A survey without unknown values stands where one with them stands. -/
structure Survey.Echoed (quiet loud : Survey) : Prop where
  scans : List.Forall₂ Scan.Echoed quiet.scans loud.scans
  memory : quiet.memory.Alike loud.memory

/-- A survey of a file without unknown values is echoed by one with them. -/
theorem surveyInto_bolder (program : Program) (root : Node) :
    Bolder Survey.Echoed Eq (surveyInto false program root) (surveyInto true program root) := by
  intro quiet loud echoed
  unfold surveyInto
  rcases candidatesIn_bolder root _ _ echoed.memory with ended | ⟨after, stopped⟩
  · generalize candidatesIn false root program quiet.memory = outcome at ended
    generalize candidatesIn true root program loud.memory = other at ended
    cases ended with
    | ok echoes after =>
        exact Or.inl (.ok rfl ⟨List.rel_append echoed.scans (.cons ⟨rfl, echoes⟩ .nil), after⟩)
    | error fault after =>
        refine Or.inl ?_
        by_cases structural : fault.isStructural = true
        · simp only [if_pos structural]
          exact .ok rfl ⟨echoed.scans, after.tracer, after.summaries, after.inProgress⟩
        · simp only [if_neg structural]
          exact .error fault ⟨echoed.scans, after⟩
  · rw [stopped]
    exact Or.inr ⟨_, rfl⟩

/-- What a survey without unknown values finds is echoed in the survey with them. -/
theorem survey_echoed {rules : RuleSet} {errors : List (String × String)} {journal : Journal}
    {roots : List Node} {quiet loud : List Scan}
    (without : survey rules false errors journal roots = .ok quiet)
    (including : survey rules true errors journal roots = .ok loud) :
    List.Forall₂ Scan.Echoed quiet loud := by
  unfold survey at without including
  dsimp only at without including
  cases taken : roots.forM takeIn _ with
  | error fault intake =>
      rw [taken] at without
      cases without
  | ok _ intake =>
      rw [taken] at without including
      dsimp only at without including
      rcases Bolder.forM (surveyInto_bolder (Program.ofAnnotated intake.annotator rules roots))
          intake.accepted
          ⟨[], { Memory.start with journal := intake.annotator.registry.journal }⟩
          ⟨[], { Memory.start with journal := intake.annotator.registry.journal }⟩
          ⟨.nil, rfl, rfl, rfl⟩ with ended | ⟨after, stopped⟩
      · generalize (intake.accepted.forM (surveyInto false _) :
          EStateM Fault Survey PUnit) _ = outcome at ended without
        generalize (intake.accepted.forM (surveyInto true _) :
          EStateM Fault Survey PUnit) _ = other at ended including
        cases ended with
        | ok _ after =>
            cases without
            cases including
            exact after.scans
        | error fault after => cases without
      · rw [stopped] at including
        cases including

end Flags

/-! ## What is reported for a slot -/

/-- The first candidate for a slot is at least as strong as all others. -/
def Scan.LeadsWithStrongest (scan : Scan) (slot : Nat × String) : Prop :=
  forall first, (scan.candidates.find? fun other => other.slot = slot) = some first ->
    forall other, other ∈ scan.candidates -> other.slot = slot -> first.AtLeast other

/-- The one finding that is reported for a slot is the first candidate. -/
theorem Scan.reported_of_mem {scan : Scan} {finding : Finding} {slot : Nat × String}
    (listed : finding ∈ scan.candidates) (same : finding.slot = slot) :
    ∃ first, (scan.reported.filter fun other => other.slot = slot) = [first] ∧
      (scan.candidates.find? fun other => other.slot = slot) = some first := by
  have present : (scan.candidates.find? fun other => other.slot = slot).isSome = true :=
    List.find?_isSome.2 ⟨finding, listed, by simpa using same⟩
  obtain ⟨first, found⟩ := Option.isSome_iff_exists.1 present
  refine ⟨first, ?_, found⟩
  rw [Scan.reported, filter_kept, found]
  rfl

/-- A search reports of every file one finding for each slot that a check has found
something for, and this finding is at least as strong as all that was found there
exactly if the slot leads with its strongest candidate. A slot that is reported without
unknown values is reported with them, and as tainted if it leads with its strongest
candidate then. -/
theorem search_reports_strongest_iff_first (rules : RuleSet) (includeUnknown : Bool)
    (errors : List (String × String)) (journal : Journal) (roots : List Node) :
    (search rules includeUnknown errors journal roots).findings =
        (survey rules includeUnknown errors journal roots).map
          (fun scans => scans.flatMap Scan.reported) ∧
    (forall scans, survey rules includeUnknown errors journal roots = .ok scans ->
      forall scan finding, scan ∈ scans -> finding ∈ scan.candidates ->
        ∃ reported, (scan.reported.filter fun other => other.slot = finding.slot) = [reported] ∧
          ((forall other, other ∈ scan.candidates -> other.slot = finding.slot ->
            reported.AtLeast other) ↔ scan.LeadsWithStrongest finding.slot)) ∧
    (forall quiet loud, survey rules false errors journal roots = .ok quiet ->
      survey rules true errors journal roots = .ok loud ->
        List.Forall₂ (fun without including => including.file = without.file ∧
          forall finding, finding ∈ without.candidates ->
            ∃ reported, (including.reported.filter fun other => other.slot = finding.slot) =
                [reported] ∧
              (including.LeadsWithStrongest finding.slot -> reported.level = .tainted))
          quiet loud) := by
  refine ⟨search_eq_survey rules errors journal roots, ?_, ?_⟩
  · intro scans _ scan finding _ listed
    obtain ⟨first, reported, found⟩ := scan.reported_of_mem listed rfl
    refine ⟨first, reported, ?_, fun leads => leads first found⟩
    intro strongest other found'
    rw [found] at found'
    cases found'
    exact strongest
  · intro quiet loud without including
    refine (survey_echoed without including).imp fun before after echoed => ⟨echoed.file, ?_⟩
    intro finding listed
    obtain ⟨other, present, slot, level⟩ := echoed.candidates finding listed
    obtain ⟨first, reported, found⟩ := after.reported_of_mem present slot
    refine ⟨first, reported, fun leads => ?_⟩
    have above := (leads first found other present slot).level
    rw [level] at above
    cases reached : first.level with
    | tainted => rfl
    | unknown => simp [reached, Level.rank] at above
    | unassigned => simp [reached, Level.rank] at above

/-- The file `<?php echo $_GET; echo $u;`. -/
def inputFirstFile : Node :=
  ⟨⟨"first.php", "<?php echo $_GET; echo $u;".toUTF8⟩, .node "program" true 0 26 "" [
    .node "php_tag" true 0 5 "" [],
    .node "echo_statement" true 6 17 "" [inputAt 11],
    .node "echo_statement" true 18 26 "" [.node "variable_name" true 23 25 "" []]]⟩

/-- The slots of some findings, with taint and confidence. -/
def shown (findings : List Finding) : List ((Nat × String) × Level × Confidence) :=
  findings.map fun finding => (finding.slot, finding.level, finding.confidence)

/-- In `inputFirstFile` the input comes before the value of unknown origin, and what is
reported for the slot of both is the input. -/
theorem search_reports_strongest_iff_first_input :
    ∃ scan, survey twoSanitizerRules true [] [] [inputFirstFile] = .ok [scan] ∧
      shown scan.candidates = [((1, "echo"), .tainted, .high), ((1, "echo"), .unknown, .low)] ∧
      scan.LeadsWithStrongest (1, "echo") ∧
      (search twoSanitizerRules true [] [] [inputFirstFile]).findings = .ok scan.reported ∧
      ∃ reported, (scan.reported.filter fun other => other.slot = (1, "echo")) = [reported] ∧
        forall other, other ∈ scan.candidates -> other.slot = (1, "echo") ->
          reported.AtLeast other := by
  have ran : (survey twoSanitizerRules true [] [] [inputFirstFile]).toOption.map
      (List.map fun scan => shown scan.candidates) =
        some [[((1, "echo"), .tainted, .high), ((1, "echo"), .unknown, .low)]] := by
    decide +kernel
  obtain ⟨scans, ended, shows⟩ := Option.map_eq_some_iff.1 ran
  have surveyed := Outcome.eq_ok_of_toOption ended
  obtain ⟨scan, rest, rfl, candidates, none⟩ := List.map_eq_cons_iff.1 shows
  obtain rfl := List.map_eq_nil_iff.1 none
  obtain ⟨input, rest, split, same, others⟩ := List.map_eq_cons_iff.1 candidates
  obtain ⟨value, last, rfl, again, none⟩ := List.map_eq_cons_iff.1 others
  obtain rfl := List.map_eq_nil_iff.1 none
  simp only [Prod.mk.injEq] at same again
  obtain ⟨slot, level, confidence⟩ := same
  have strongest : forall other, other ∈ scan.candidates -> input.AtLeast other := by
    intro other listed
    refine ⟨?_, fun _ => confidence⟩
    rw [level]
    cases other.level <;> decide
  have leads : scan.LeadsWithStrongest (1, "echo") := by
    intro first found other listed _
    rw [split, List.find?_cons_of_pos (by simpa using slot)] at found
    cases found
    exact strongest other listed
  obtain ⟨reports, single, _⟩ :=
    search_reports_strongest_iff_first twoSanitizerRules true [] [] [inputFirstFile]
  obtain ⟨reported, kept, iff⟩ := single [scan] surveyed scan input (List.mem_singleton.2 rfl)
    (by rw [split]; exact List.mem_cons_self ..)
  rw [slot] at kept iff
  refine ⟨scan, surveyed, candidates, leads, ?_, reported, kept, iff.2 leads⟩
  rw [reports, surveyed]
  simp [Except.map]

/-- The file `<?php echo $u; echo $_GET;`. -/
def inputLastFile : Node :=
  ⟨⟨"last.php", "<?php echo $u; echo $_GET;".toUTF8⟩, .node "program" true 0 26 "" [
    .node "php_tag" true 0 5 "" [],
    .node "echo_statement" true 6 14 "" [.node "variable_name" true 11 13 "" []],
    .node "echo_statement" true 15 26 "" [inputAt 20]]⟩

/-- In `inputLastFile` the value of unknown origin comes first. With unknown values it is
reported in the place of the input, which is reported without them. -/
theorem search_replaces_tainted_by_unknown :
    (search twoSanitizerRules false [] [] [inputLastFile]).findings.toOption.map shown =
        some [((1, "echo"), .tainted, .high)] ∧
      (search twoSanitizerRules true [] [] [inputLastFile]).findings.toOption.map shown =
        some [((1, "echo"), .unknown, .low)] ∧
      (survey twoSanitizerRules true [] [] [inputLastFile]).toOption.map
          (List.map fun scan => shown scan.candidates) =
        some [[((1, "echo"), .unknown, .low), ((1, "echo"), .tainted, .high)]] := by
  refine ⟨?_, ?_, ?_⟩
  · decide +kernel
  · decide +kernel
  · decide +kernel

end PhpTaint.Findings
