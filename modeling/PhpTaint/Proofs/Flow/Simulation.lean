import PhpTaint.Proofs.Flow.Growth

/-!
# Runs that follow one another

Two visitors run through the same rules from memories that agree on the running
tracer but may hold different summaries. `Follows` says that the second visitor,
once it may go deep enough, comes to the same end as the first: the same value
with tracers that agree again, the same fault, or a call that both note as
recursive. A run that went too deep has come to no end. `Uniform.follows` reduces
this for all rules to the visitors and to the way in which summaries are entered.

The second run may start while other summaries are being built than in the first
one. That makes no difference to a run that ends with a value if no summary that
the first run can have used is among them, which is what `Admits` asks for.
-/

namespace PhpTaint.Flow

open Scopes Syntax Rules

variable {α β : Type} {program : Program} {first second after : Memory} {declaration : Node}

/-- No note of a memory says that a call was recursive. -/
def Memory.Quiet (memory : Memory) : Prop :=
  forall note, note ∈ memory.journal -> isRecursionNote note = false

/-- What a memory holds apart from the running tracer and the notes. -/
structure Stock where
  summaries : Table Key Summary
  /-- The declarations whose summaries are being built. -/
  inProgress : List Key

/-- What a memory holds apart from the running tracer and the notes. -/
def Memory.stock (memory : Memory) : Stock := ⟨memory.summaries, memory.inProgress⟩

/-- Two memories without a recursive call that agree on the running tracer. -/
structure Linked (core : Stock -> Stock -> Prop) (first second : Memory) : Prop where
  tracer : second.tracer = first.tracer
  firstQuiet : first.Quiet
  secondQuiet : second.Quiet
  core : core first.stock second.stock

/-- Two runs came to the same end. -/
inductive Agrees (core : Stock -> Stock -> Prop) : Ending α -> Ending α -> Prop where
  /-- Both ended with one value. -/
  | value {value : α} {first second : Memory} (linked : Linked core first second) :
      Agrees core (.ok value first) (.ok value second)
  /-- Both ended with one fault. -/
  | fault {fault : Fault} {first second : Memory} (firstQuiet : first.Quiet)
      (secondQuiet : second.Quiet) : Agrees core (.error fault first) (.error fault second)
  /-- Both met a recursive call. -/
  | recursive {first second : Ending α} (firstLoud : ¬ first.memory.Quiet)
      (secondLoud : ¬ second.memory.Quiet) : Agrees core first second

/-- A run went too deep before it met a recursive call. -/
def Exhausted (ending : Ending α) : Prop := ∃ after, ending = .error .tooDeep after ∧ after.Quiet

/-- The summaries that are being built in the second memory do not disturb a run
that ended like this from the first. Where `free` does not hold they have to be
the same. -/
def Admits (free : Prop) (first : Memory) (ending : Ending α) (second : Memory) : Prop :=
  second.inProgress = first.inProgress ∨
    free ∧ ∃ value after, ending = .ok value after ∧ after.Quiet ∧
      forall key, key ∈ second.inProgress -> after.summaries.find? key = none

/-- Unless the source goes too deep from the given memory, the target comes to the
same end when it may go deep enough. -/
def FollowsFrom (core : Stock -> Stock -> Prop) (free : Prop) (program : Program) (first : Memory)
    (source : Tracing α) (target : Nat -> Tracing α) : Prop :=
  ¬ Exhausted (source program first) -> ∃ enough, forall depth, enough <= depth ->
    forall second, Linked core first second -> Admits free first (source program first) second ->
      Agrees core (source program first) (target depth program second)

/-- The target comes to the same end from whatever memory the source starts. -/
def Follows (core : Stock -> Stock -> Prop) (free : Prop) (program : Program) (source : Tracing α)
    (target : Nat -> Tracing α) : Prop :=
  forall first, FollowsFrom core free program first source target

/-- If nothing recursive was noted in the end, nothing was before. -/
theorem Grown.quiet (grown : Grown first second) (quiet : second.Quiet) : first.Quiet :=
  fun note member => quiet note (grown.journal.subset member)

/-- A note about something else leaves a memory without a recursive call. -/
theorem Memory.Quiet.note {memory : Memory} (quiet : memory.Quiet) {text : String}
    (plain : isRecursionNote ⟨.debug, .flow, text⟩ = false) : (memory.note text).Quiet := by
  intro note member
  rcases List.mem_cons.1 member with rfl | earlier
  · exact plain
  · exact quiet note earlier

/-- After a recursive call the notes tell of it. -/
theorem Memory.not_quiet_note {memory : Memory} {text : String}
    (recursive : isRecursionNote ⟨.debug, .flow, text⟩ = true) : ¬ (memory.note text).Quiet := by
  intro quiet
  have plain := quiet _ (List.mem_cons_self ..)
  rw [recursive] at plain
  cases plain

section Bind

variable {core : Stock -> Stock -> Prop} {free : Prop}

/-- A run that has met a recursive call does not forget it. -/
theorem loud_of_bind {step : Tracing β} {next : β -> Tracing α}
    (grows : forall value, Advances Grown program (next value)) {memory : Memory}
    (loud : ¬ (Ending.memory (step program memory)).Quiet) :
    ¬ (Ending.memory ((step >>= next) program memory)).Quiet := by
  intro quiet
  cases run : step program memory with
  | error fault after =>
      rw [run_bind_error run] at quiet
      rw [run] at loud
      exact loud quiet
  | ok value after =>
      rw [run_bind_ok run] at quiet
      rw [run] at loud
      exact loud ((grows value after).quiet quiet)

/-- Where the source did not end with a value, or met a recursive call, the same
summaries are being built. -/
theorem Admits.same {ending : Ending α} (admits : Admits free first ending second)
    (unfinished : forall value after, ending = .ok value after -> ¬ after.Quiet) :
    second.inProgress = first.inProgress := by
  rcases admits with same | ⟨_, value, final, finished, quiet, _⟩
  · exact same
  · exact absurd quiet (unfinished value final finished)

/-- What does not disturb a run does not disturb its beginning. -/
theorem Admits.earlier {value : β} {ending : Ending α} (admits : Admits free first ending second)
    (grown : Grown after ending.memory) :
    Admits free first (.ok value after : Ending β) second := by
  rcases admits with same | ⟨allowed, last, final, rfl, quiet, apart⟩
  · exact Or.inl same
  · exact Or.inr ⟨allowed, value, after, rfl, grown.quiet quiet,
      fun key listed => grown.missing (apart key listed)⟩

/-- What does not disturb two steps does not disturb the first of them. -/
theorem Admits.of_bind {step : Tracing β} {next : β -> Tracing α}
    (admits : Admits free first ((step >>= next) program first) second)
    (grows : forall value, Advances Grown program (next value)) :
    Admits free first (step program first) second := by
  cases run : step program first with
  | error fault after =>
      refine Or.inl (admits.same ?_)
      rw [run_bind_error run]
      exact fun _ _ absurdity => nomatch absurdity
  | ok value after =>
      rw [run_bind_ok run] at admits
      exact admits.earlier (grows value after)

/-- What does not disturb a run does not disturb the rest of it. -/
theorem Admits.later {ending : Ending α} {final : Memory} (admits : Admits free first ending second)
    (grown : Grown first after) (other : Grown second final) :
    Admits free after ending final := by
  rcases admits with same | ⟨allowed, last, ended, finished, quiet, apart⟩
  · exact Or.inl (other.inProgress.trans (same.trans grown.inProgress.symm))
  · refine Or.inr ⟨allowed, last, ended, finished, quiet, fun key listed => ?_⟩
    rw [other.inProgress] at listed
    exact apart key listed

/-- The second of two steps follows, if the first did and both have ended with one
value. -/
theorem Agrees.bind {source target : Tracing β} {sourceNext targetNext : β -> Tracing α}
    (grown : Grown first (Ending.memory (source program first)))
    (otherGrown : Grown second (Ending.memory (target program second)))
    (sourceNextGrows : forall value, Advances Grown program (sourceNext value))
    (targetNextGrows : forall value, Advances Grown program (targetNext value))
    (admits : Admits free first ((source >>= sourceNext) program first) second)
    (agreed : Agrees core (source program first) (target program second))
    (continues : forall value after final, source program first = .ok value after ->
      Linked core after final -> Admits free after (sourceNext value program after) final ->
        Agrees core (sourceNext value program after) (targetNext value program final)) :
    Agrees core ((source >>= sourceNext) program first) ((target >>= targetNext) program second) := by
  generalize sourceRun : source program first = sourceEnding at agreed grown continues
  generalize targetRun : target program second = targetEnding at agreed otherGrown
  cases agreed with
  | value linked =>
      rw [run_bind_ok sourceRun] at admits ⊢
      rw [run_bind_ok targetRun]
      exact continues _ _ _ rfl linked (admits.later grown otherGrown)
  | fault firstQuiet secondQuiet =>
      rw [run_bind_error sourceRun, run_bind_error targetRun]
      exact .fault firstQuiet secondQuiet
  | recursive firstLoud secondLoud =>
      refine .recursive (loud_of_bind sourceNextGrows ?_) (loud_of_bind targetNextGrows ?_)
      · rw [sourceRun]
        exact firstLoud
      · rw [targetRun]
        exact secondLoud

/-- A run is followed step by step, each at its own depth. -/
theorem FollowsFrom.bind {source : Tracing β} {sourceNext : β -> Tracing α}
    {target : Nat -> Tracing β} {targetNext : β -> Nat -> Tracing α}
    (grown : Grown first (Ending.memory (source program first)))
    (targetGrown : forall depth second,
      Admits free first ((source >>= sourceNext) program first) second ->
        Grown second (Ending.memory (target depth program second)))
    (sourceNextGrows : forall value, Advances Grown program (sourceNext value))
    (targetNextGrows : forall value depth, Advances Grown program (targetNext value depth))
    (begins : FollowsFrom core free program first source target)
    (continues : forall value, Follows core free program (sourceNext value) (targetNext value)) :
    FollowsFrom core free program first (source >>= sourceNext)
      fun depth => target depth >>= fun value => targetNext value depth := by
  intro ended
  have unfinished : ¬ Exhausted (source program first) := by
    rintro ⟨after, run, quiet⟩
    exact ended ⟨after, run_bind_error run _, quiet⟩
  obtain ⟨enough, agrees⟩ := begins unfinished
  -- how deep the second step has to go is known only once the first has ended with a value
  have nextEnough : ∃ more, forall value after, source program first = .ok value after ->
      forall depth, more <= depth -> forall final, Linked core after final ->
        Admits free after (sourceNext value program after) final ->
          Agrees core (sourceNext value program after) (targetNext value depth program final) := by
    cases run : source program first with
    | error fault after => exact ⟨0, fun _ _ absurdity => nomatch absurdity⟩
    | ok value after =>
        have unfinishedNext : ¬ Exhausted (sourceNext value program after) := by
          rw [← run_bind_ok run sourceNext]
          exact ended
        obtain ⟨more, agreesNext⟩ := continues value after unfinishedNext
        refine ⟨more, ?_⟩
        rintro _ _ ⟨⟩
        exact agreesNext
  obtain ⟨more, agreesNext⟩ := nextEnough
  refine ⟨max enough more, fun depth deep second linked admits => ?_⟩
  exact Agrees.bind grown (targetGrown depth second admits) sourceNextGrows
    (fun value => targetNextGrows value depth) admits
    (agrees depth (Nat.le_trans (Nat.le_max_left ..) deep) second linked
      (admits.of_bind sourceNextGrows))
    fun value after final run linked admits =>
      agreesNext value after run depth (Nat.le_trans (Nat.le_max_right ..) deep) final linked admits

end Bind

section Steps

variable {core : Stock -> Stock -> Prop} {free : Prop}

/-- A step that changes neither the summaries nor the notes nor asks for a trace
follows itself. -/
theorem Follows.orFault (result : Except Fault α) :
    Follows core free program (orFault result) fun _ => Flow.orFault result := by
  intro first _
  refine ⟨0, fun depth _ second linked _ => ?_⟩
  cases result with
  | ok value => exact .value linked
  | error fault => exact .fault linked.firstQuiet linked.secondQuiet

theorem Linked.withTracer (linked : Linked core first second) (tracer : Tracer) :
    Linked core (first.withTracer tracer) (second.withTracer tracer) :=
  ⟨rfl, linked.firstQuiet, linked.secondQuiet, linked.core⟩

/-- Linked memories stay linked when both take a note that is not of a recursive call. -/
theorem Linked.note (linked : Linked core first second) {text : String}
    (plain : isRecursionNote ⟨.debug, .flow, text⟩ = false) :
    Linked core (first.note text) (second.note text) :=
  ⟨linked.tracer, linked.firstQuiet.note plain, linked.secondQuiet.note plain, linked.core⟩

/-- A note is followed by the same note. -/
theorem Follows.remark (text : String) :
    Follows core free program (remark text) fun _ => Flow.remark text := by
  intro first _
  refine ⟨0, fun depth _ second linked _ => ?_⟩
  show Agrees core (.ok () (first.note text)) (.ok () (second.note text))
  cases recursive : isRecursionNote ⟨.debug, .flow, text⟩ with
  | true => exact .recursive (Memory.not_quiet_note recursive) (Memory.not_quiet_note recursive)
  | false => exact .value (linked.note recursive)

/-- A change of the tracer is followed by the same change. -/
theorem Follows.updateTracer (change : Tracer -> Tracer) :
    Follows core free program (updateTracer change) fun _ => Flow.updateTracer change := by
  intro first _
  refine ⟨0, fun depth _ second linked _ => ?_⟩
  show Agrees core (.ok () (first.withTracer (change first.tracer)))
    (.ok () (second.withTracer (change second.tracer)))
  rw [linked.tracer]
  exact .value (linked.withTracer _)

/-- The same ending in a changed memory. -/
def Ending.map (ending : Ending α) (change : Memory -> Memory) : Ending α :=
  match ending with
  | .ok value after => .ok value (change after)
  | .error fault after => .error fault (change after)

/-- What is computed from the value of a step with another tracer may as well be
computed with that tracer. -/
theorem withTracer_run (tracer : Tracer) (step : Tracing β) (change : β -> α) (memory : Memory) :
    (withTracer tracer step >>= fun (value, _) => pure (change value)) program memory =
      Ending.map ((step >>= fun value => pure (change value)) program (memory.withTracer tracer))
        fun after => after.withTracer memory.tracer := by
  cases run : step program (memory.withTracer tracer) with
  | ok value after =>
      have ended : withTracer tracer step program memory =
          .ok (value, after.tracer) (after.withTracer memory.tracer) := by
        unfold withTracer
        rw [show step program { memory with tracer := tracer } = .ok value after from run]
        rfl
      rw [run_bind_ok run, run_bind_ok ended]
      rfl
  | error fault after =>
      have ended : withTracer tracer step program memory =
          .error fault (after.withTracer memory.tracer) := by
        unfold withTracer
        rw [show step program { memory with tracer := tracer } = .error fault after from run]
        rfl
      rw [run_bind_error run, run_bind_error ended]
      rfl

/-- Summaries are built with a tracer of their own: the running one does not
matter. -/
theorem buildSummary_withTracer (trace : Node -> Tracing Deps) (declaration : Node)
    (memory : Memory) (tracer : Tracer) :
    buildSummary trace declaration program (memory.withTracer tracer) =
      Ending.map (buildSummary trace declaration program memory) fun after =>
        after.withTracer tracer := by
  cases found : declaration.child? "body" with
  | none =>
      rw [buildSummary_without_body found, buildSummary_without_body found]
      rfl
  | some body =>
      have entered : (memory.withTracer tracer).enter declaration = memory.enter declaration := rfl
      rw [buildSummary_with_body found, buildSummary_with_body found, entered]
      cases traceReturns trace declaration body program (memory.enter declaration) <;> rfl

/-- The running tracer has no part in a summary. -/
theorem summaryOf_withTracer (trace : Node -> Tracing Deps) (declaration : Node) (memory : Memory)
    (tracer : Tracer) :
    summaryOf trace declaration program (memory.withTracer tracer) =
      Ending.map (summaryOf trace declaration program memory) fun after =>
        after.withTracer tracer := by
  have same : (memory.withTracer tracer).summaries = memory.summaries := rfl
  cases found : memory.summaries.find? declaration.key with
  | some summary =>
      rw [summaryOf_found found, summaryOf_found (same ▸ found)]
      rfl
  | none =>
      rw [summaryOf_missing found, summaryOf_missing (same ▸ found), buildSummary_withTracer]
      cases buildSummary trace declaration program memory <;> rfl

/-- Entering a summary leaves the running tracer alone. -/
theorem map_summaryOf_withTracer (trace : Node -> Tracing Deps) (declaration : Node)
    (program : Program) (memory : Memory) :
    Ending.map (summaryOf trace declaration program memory) (fun after =>
      after.withTracer memory.tracer) = summaryOf trace declaration program memory :=
  (summaryOf_withTracer trace declaration memory memory.tracer).symm

/-- A run that did not go too deep did not do so before its memory was changed. -/
theorem not_exhausted_of_map {ending : Ending α} {change : Memory -> Memory}
    (ended : ¬ Exhausted (ending.map change))
    (journal : forall memory, (change memory).journal = memory.journal) : ¬ Exhausted ending := by
  rintro ⟨after, rfl, quiet⟩
  refine ended ⟨change after, rfl, ?_⟩
  unfold Memory.Quiet
  rw [journal]
  exact quiet

/-- Two runs still agree after changes that leave the notes alone and keep what
links the memories. -/
theorem Agrees.map {source target : Ending α} (agrees : Agrees core source target)
    {change other : Memory -> Memory} (journal : forall memory, (change memory).journal = memory.journal)
    (otherJournal : forall memory, (other memory).journal = memory.journal)
    (links : forall after final, source.memory = after -> target.memory = final ->
      Linked core after final -> (other final).tracer = (change after).tracer ∧
        core (change after).stock (other final).stock) :
    Agrees core (source.map change) (target.map other) := by
  cases agrees with
  | @value value after final linked =>
      obtain ⟨tracer, holds⟩ := links after final rfl rfl linked
      refine .value ⟨tracer, ?_, ?_, holds⟩
      · unfold Memory.Quiet
        rw [journal]
        exact linked.firstQuiet
      · unfold Memory.Quiet
        rw [otherJournal]
        exact linked.secondQuiet
  | @fault fault after final firstQuiet secondQuiet =>
      refine .fault ?_ ?_
      · unfold Memory.Quiet
        rw [journal]
        exact firstQuiet
      · unfold Memory.Quiet
        rw [otherJournal]
        exact secondQuiet
  | recursive firstLoud secondLoud =>
      refine .recursive ?_ ?_
      · unfold Memory.Quiet at firstLoud ⊢
        cases source <;> simpa only [Ending.map, Ending.memory, journal] using firstLoud
      · unfold Memory.Quiet at secondLoud ⊢
        cases target <;> simpa only [Ending.map, Ending.memory, otherJournal] using secondLoud

/-- What does not disturb a run does not disturb the run before its memory was
changed, if the change drops no summary that could. -/
theorem Admits.of_map {ending : Ending α} {change : Memory -> Memory} {before other : Memory}
    (admits : Admits free first (ending.map change) second)
    (journal : forall memory, (change memory).journal = memory.journal)
    (firstSame : before.inProgress = first.inProgress)
    (secondSame : other.inProgress = second.inProgress)
    (drops : forall value after, ending = .ok value after -> forall key,
      (change after).summaries.find? key = none -> after.summaries.find? key = none) :
    Admits free before ending other := by
  rcases admits with same | ⟨allowed, value, after, finished, quiet, apart⟩
  · exact Or.inl (secondSame.trans (same.trans firstSame.symm))
  · cases ending with
    | error fault final => cases finished
    | ok result final =>
        cases finished
        refine Or.inr ⟨allowed, value, final, rfl, ?_, fun key listed => ?_⟩
        · unfold Memory.Quiet at quiet
          rw [journal] at quiet
          exact quiet
        · rw [secondSame] at listed
          exact drops value final rfl key (apart key listed)

theorem whileActive_run (key : Key) (step : Tracing α) (memory : Memory) :
    whileActive key step program memory =
      Ending.map (step program (memory.activate key)) fun after => after.release key := rfl

/-- A step that is followed is followed under a mark on a definition. -/
theorem Follows.whileActive {source : Tracing α} {target : Nat -> Tracing α} (key : Key)
    (follows : Follows core free program source target) :
    Follows core free program (whileActive key source) fun depth =>
      Flow.whileActive key (target depth) := by
  intro first ended
  simp only [whileActive_run] at ended ⊢
  obtain ⟨enough, agrees⟩ := follows (first.activate key)
    (not_exhausted_of_map ended fun _ => rfl)
  refine ⟨enough, fun depth deep second linked admits => ?_⟩
  have activated : Linked core (first.activate key) (second.activate key) := by
    unfold Memory.activate
    rw [linked.tracer]
    exact linked.withTracer _
  have admitted : Admits free (first.activate key) (source program (first.activate key))
      (second.activate key) :=
    admits.of_map (fun _ => rfl) rfl rfl fun _ _ _ _ missing => missing
  refine (agrees depth deep _ activated admitted).map (fun _ => rfl) (fun _ => rfl) ?_
  intro after final _ _ linked
  refine ⟨?_, linked.core⟩
  unfold Memory.release
  rw [linked.tracer]

/-- A summary that the first run has entered is not being built in the second
memory. -/
theorem Admits.idle {trace : Node -> Tracing Deps} (idle : declaration.key ∉ first.inProgress)
    (admits : Admits free first (summaryOf trace declaration program first) second) :
    declaration.key ∉ second.inProgress := by
  intro listed
  rcases admits with same | ⟨_, summary, after, finished, _, apart⟩
  · exact idle (same ▸ listed)
  · have absent := apart declaration.key listed
    rw [find?_of_summaryOf finished] at absent
    cases absent

section Enter

variable {text : String} {answer : α} {next : Summary -> Visitor -> Tracing α} {source : Visitor}

/-- The target follows a summary that is entered if it follows the summary and what
is computed from it. -/
theorem Follows.enterSummary {target : Nat -> Visitor}
    (noted : isRecursionNote ⟨.debug, .flow, text⟩ = true)
    (sourceReturns : forall body, declaration.child? "body" = some body ->
      Advances Grown program (traceReturns source.trace declaration body))
    (targetReturns : forall body, declaration.child? "body" = some body -> forall depth,
      Advances Grown program (traceReturns (target depth).trace declaration body))
    (sourceContinues : forall summary, Advances Grown program (next summary source))
    (targetContinues : forall summary depth, Advances Grown program (next summary (target depth)))
    (summarizes : forall first, declaration.key ∉ first.inProgress ->
      FollowsFrom core free program first (summaryOf source.trace declaration) fun depth =>
        summaryOf (target depth).trace declaration)
    (continues : forall summary, Follows core free program (next summary source) fun depth =>
      next summary (target depth)) :
    Follows core free program (Flow.enterSummary declaration text answer next source) fun depth =>
      Flow.enterSummary declaration text answer next (target depth) := by
  intro first ended
  by_cases listed : declaration.key ∈ first.inProgress
  · refine ⟨0, fun depth _ second _ admits => ?_⟩
    rw [enterSummary_recursive listed] at admits ⊢
    have same := admits.same (by rintro _ _ ⟨⟩; exact Memory.not_quiet_note noted)
    show Agrees core _
      (Flow.enterSummary declaration text answer next (target depth) program second)
    rw [enterSummary_recursive (same ▸ listed)]
    exact .recursive (Memory.not_quiet_note noted) (Memory.not_quiet_note noted)
  · simp only [enterSummary_idle listed] at ended ⊢
    have idle : forall second, Admits free first ((summaryOf source.trace declaration >>=
        fun summary => next summary source) program first) second ->
        declaration.key ∉ second.inProgress :=
      fun _ admits => (admits.of_bind sourceContinues).idle listed
    obtain ⟨enough, agrees⟩ := FollowsFrom.bind (Grown.summaryOf sourceReturns listed)
      (fun depth second admits =>
        Grown.summaryOf (fun body found => targetReturns body found depth) (idle second admits))
      sourceContinues targetContinues (summarizes first listed) continues ended
    refine ⟨enough, fun depth deep second linked admits => ?_⟩
    show Agrees core _
      (Flow.enterSummary declaration text answer next (target depth) program second)
    rw [enterSummary_idle (idle second admits)]
    exact agrees depth deep second linked admits

end Enter

/-- The target follows every uniform step if it follows every trace, and entering a
summary once it follows the return statements. -/
theorem Uniform.follows {declared : Node -> Prop} {source : Visitor} {target : Nat -> Visitor}
    (sourceGrows : forall {α : Type} {step : Visitor -> Tracing α}, Uniform program declared step ->
      Advances Grown program (step source))
    (targetGrows : forall {α : Type} {step : Visitor -> Tracing α}, Uniform program declared step ->
      forall depth, Advances Grown program (step (target depth)))
    (traces : forall node, Follows core free program (source.trace node) fun depth =>
      (target depth).trace node)
    (definitions : forall name node, Follows core free program (source.definition name node)
      fun depth => (target depth).definition name node)
    (summaries : forall declaration, declared declaration ->
      (forall body, declaration.child? "body" = some body ->
        Follows core free program (Flow.traceReturns source.trace declaration body) fun depth =>
          Flow.traceReturns (target depth).trace declaration body) ->
      forall first, declaration.key ∉ first.inProgress ->
        FollowsFrom core free program first (summaryOf source.trace declaration) fun depth =>
          summaryOf (target depth).trace declaration)
    {step : Visitor -> Tracing α} (uniform : Uniform program declared step) :
    Follows core free program (step source) fun depth => step (target depth) := by
  induction uniform with
  | pure value => exact Follows.orFault (.ok value)
  | orFault result => exact Follows.orFault result
  | read _ inductionHypothesis => exact inductionHypothesis
  | @look _ next tracerOnly _ inductionHypothesis =>
      intro first ended
      obtain ⟨enough, agrees⟩ := inductionHypothesis first first ended
      refine ⟨enough, fun depth deep second linked admits => ?_⟩
      show Agrees core (next first source program first) (next second (target depth) program second)
      rw [tracerOnly second first linked.tracer]
      exact agrees depth deep second linked admits
  | remark text => exact Follows.remark text
  | updateTracer change => exact Follows.updateTracer change
  | trace node => exact traces node
  | definition name node => exact definitions name node
  | bind begins continues beginsFollows continuesFollow =>
      intro first
      exact FollowsFrom.bind (sourceGrows begins first)
        (fun depth second _ => targetGrows begins depth second)
        (fun value => sourceGrows (continues value)) (fun value => targetGrows (continues value))
        (beginsFollows first) continuesFollow
  | whileActive key _ inductionHypothesis => exact Follows.whileActive key inductionHypothesis
  | summary declares noted returns continues returnsFollow continuesFollow =>
      exact Follows.enterSummary noted (fun body found => sourceGrows (returns body found))
        (fun body found => targetGrows (returns body found))
        (fun summary => sourceGrows (continues summary))
        (fun summary => targetGrows (continues summary))
        (summaries _ declares returnsFollow) continuesFollow

end Steps

end PhpTaint.Flow
