import PhpTaint.Proofs.Flow.Afresh

/-!
# Keeping summaries makes no difference

Three runs are compared, each with a visitor that may go deep enough: tracing with
kept summaries is followed by tracing afresh, tracing afresh is followed by itself
at a greater depth, and tracing afresh is followed by tracing with kept summaries.
Together they say that what a trace comes to depends on the kept summaries in no
way, as long as these can be trusted, and that they can be trusted after every
trace without a recursive call.
-/

namespace PhpTaint.Flow

open Scopes Syntax Rules

variable {α : Type} {program : Program} {declared : Node -> Prop} {memory first second after : Memory}
  {declaration : Node} {core : Stock -> Stock -> Prop} {free : Prop}

/-- The summaries that are kept can be trusted, and those built afresh are among
them. -/
def Trusts (program : Program) (declared : Node -> Prop) (kept fresh : Stock) : Prop :=
  Reliable program declared kept ∧ Within fresh.summaries kept.summaries

/-- The two stocks have the same summaries. -/
def SameSummaries (first second : Stock) : Prop := second.summaries = first.summaries

/-- No two declarations have one key. -/
def KeyedApart (declared : Node -> Prop) : Prop :=
  forall first second, declared first -> declared second -> first.key = second.key -> first = second

/-- A stock stays reliable when the construction of a missing summary begins. -/
theorem Reliable.nest {stock : Stock} (reliable : Reliable program declared stock) {key : Key}
    (missing : stock.summaries.find? key = none) :
    Reliable program declared ⟨stock.summaries, key :: stock.inProgress⟩ := by
  refine ⟨reliable.declared, reliable.trusted, ?_⟩
  intro other listed
  rcases List.mem_cons.1 listed with rfl | earlier
  · exact missing
  · exact reliable.waiting other earlier

/-- A stock stays reliable when the construction of a summary is over. -/
theorem Reliable.unnest {stock : Stock} (reliable : Reliable program declared stock) {key : Key}
    {outer : List Key} (inside : stock.inProgress = key :: outer) :
    Reliable program declared ⟨stock.summaries, outer⟩ := by
  refine ⟨reliable.declared, reliable.trusted, ?_⟩
  intro other listed
  refine reliable.waiting other ?_
  rw [inside]
  exact List.mem_cons_of_mem _ listed

/-- Trust is kept through the construction of a summary. -/
theorem Trusts.nesting : Nesting (Trusts program declared) where
  enters := fun ⟨reliable, within⟩ missing _ => ⟨reliable.nest missing, within⟩
  leaves := fun ⟨reliable, within⟩ inside _ => ⟨reliable.unnest inside, within⟩

/-- Trust is kept through the construction of a summary the other way, too. -/
theorem Trusts.nesting_flipped : Nesting fun fresh kept => Trusts program declared kept fresh where
  enters := fun ⟨reliable, within⟩ _ missing => ⟨reliable.nest missing, within⟩
  leaves := fun ⟨reliable, within⟩ _ inside => ⟨reliable.unnest inside, within⟩

/-- The same summaries stay the same through the construction of one. -/
theorem SameSummaries.nesting : Nesting SameSummaries where
  enters := fun same _ _ => same
  leaves := fun same _ _ => same

/-- Building a summary afresh is the same in a memory with another tracer and with
other summaries. -/
theorem buildSummary_afresh_elsewhere (depth : Nat) (declaration : Node) (memory : Memory)
    (program : Program) (tracer : Tracer) (summaries : Table Key Summary) :
    buildSummary (traceAfresh depth) declaration program
        ((memory.withTracer tracer).withSummaries summaries) =
      Ending.map (buildSummary (traceAfresh depth) declaration program memory) fun after =>
        (after.withTracer tracer).withSummaries summaries := by
  have blind : Blind program (buildSummary (traceAfresh depth) declaration) :=
    Blind.buildSummary (Blind.traceAfresh depth) declaration
  rw [blind (memory.withTracer tracer) summaries, buildSummary_withTracer]
  cases buildSummary (traceAfresh depth) declaration program memory <;> rfl

/-- A summary that was built without a recursive call can be trusted from then
on. -/
theorem trusted_of_buildSummary (calls : CallsDeclared program declared)
    {trace : Node -> Tracing Deps}
    (grows : forall body, declaration.child? "body" = some body ->
      Advances Grown program (traceReturns trace declaration body))
    (returns : forall body, declaration.child? "body" = some body ->
      Follows (Trusts program declared) True program (traceReturns trace declaration body)
        fun depth => traceReturns (traceAfresh depth) declaration body)
    (reliable : Reliable program declared first.stock)
    (missing : first.summaries.find? declaration.key = none)
    (idle : declaration.key ∉ first.inProgress) {summary : Summary}
    (built : buildSummary trace declaration program first = .ok summary after)
    (quiet : after.Quiet) :
    summary.declaration = declaration ∧
      Trusted program (after.summaries.insert declaration.key summary) summary := by
  have afreshGrows : forall depth body, declaration.child? "body" = some body ->
      Advances Grown program (traceReturns (traceAfresh depth) declaration body) :=
    fun depth body _ => afresh_grows calls depth (Uniform.traceReturns declaration body)
  have grown := (Grown.buildSummary grows idle missing).1
  rw [built] at grown
  have same := declaration_of_buildSummary built
  refine ⟨same, ?_⟩
  obtain ⟨enough, agrees⟩ := follows_buildSummary Trusts.nesting grows afreshGrows returns missing
    idle (by rintro ⟨_, run, _⟩; rw [built] at run; cases run)
  refine ⟨enough, fun depth deep memory memoryQuiet apart => ?_⟩
  rw [same]
  let start : Memory := (memory.withSummaries ∅).withTracer first.tracer
  have waiting : declaration.key ∉ start.inProgress := by
    intro listed
    have absent := apart declaration.key listed
    rw [Table.find?_insert_self] at absent
    cases absent
  have linked : Linked (Trusts program declared) first start :=
    ⟨rfl, grown.quiet quiet, memoryQuiet, reliable, Within.empty _⟩
  have admits : Admits True first (buildSummary trace declaration program first) start := by
    rw [built]
    refine Or.inr ⟨trivial, summary, after, rfl, quiet, fun key listed => ?_⟩
    have absent := apart key listed
    rw [Table.find?_insert_of_ne] at absent
    · exact absent
    · rintro rfl
      exact waiting listed
  have agreed := agrees depth deep start linked rfl waiting admits
  have startGrown : Grown start _ := (Grown.buildSummary (afreshGrows depth) waiting rfl).1
  have back := buildSummary_afresh_elsewhere depth declaration start program memory.tracer
    memory.summaries
  rw [built] at agreed
  generalize buildSummary (traceAfresh depth) declaration program start = ending
    at agreed startGrown back
  cases agreed with
  | recursive firstLoud _ => exact absurd quiet firstLoud
  | @value _ _ final linkedAfter =>
      refine ⟨(final.withTracer memory.tracer).withSummaries memory.summaries, back, rfl, ?_,
        linkedAfter.secondQuiet⟩
      show (⟨memory.summaries, final.inProgress⟩ : Stock) = memory.stock
      rw [show final.inProgress = memory.inProgress from startGrown.inProgress]
      rfl

section Wrapping

/-- Two runs that are not free start while the same summaries are being built. -/
theorem Admits.inProgress_eq {ending : Ending α} (admits : Admits False first ending second) :
    second.inProgress = first.inProgress := by
  rcases admits with same | ⟨absurdity, _⟩
  · exact same
  · exact absurdity.elim

/-- Nothing has to follow a run that went too deep. -/
theorem Follows.tooDeep (target : Nat -> Tracing α) :
    Follows core free program (throw .tooDeep) target := by
  intro first ended
  refine ⟨0, fun depth _ second linked _ => ?_⟩
  exact absurd ⟨first, rfl, linked.firstQuiet⟩ ended

/-- A step without summaries puts back those that there were. -/
theorem withoutSummaries_run (step : Tracing α) (memory : Memory) :
    withoutSummaries step program memory =
      Ending.map (step program (memory.withSummaries ∅)) fun after =>
        after.withSummaries memory.summaries := rfl

/-- The target may drop its summaries before and after. -/
theorem Follows.into_afresh {source : Tracing α} {target inner : Nat -> Tracing α}
    (steps : forall depth, target (depth + 1) = withoutSummaries (inner depth))
    (grows : Advances Grown program source)
    (follows : Follows (Trusts program declared) free program source inner) :
    Follows (Trusts program declared) free program source target := by
  intro first ended
  obtain ⟨enough, agrees⟩ := follows first ended
  refine ⟨enough + 1, fun depth deep second linked admits => ?_⟩
  obtain ⟨lower, rfl⟩ : ∃ lower, depth = lower + 1 := ⟨depth - 1, by omega⟩
  have emptied : Linked (Trusts program declared) first (second.withSummaries ∅) :=
    ⟨linked.tracer, linked.firstQuiet, linked.secondQuiet, linked.core.1, Within.empty _⟩
  have agreed := agrees lower (by omega) (second.withSummaries ∅) emptied admits
  have grown := grows first
  rw [steps, withoutSummaries_run]
  have unchanged : Ending.map (source program first) (fun after => after) =
      source program first := by
    cases source program first <;> rfl
  rw [← unchanged]
  refine agreed.map (fun _ => rfl) (fun _ => rfl) ?_
  rintro after final rfl _ ⟨tracer, _, _, reliable, _⟩
  refine ⟨tracer, reliable, fun key summary found => ?_⟩
  exact grown.summaries key summary (linked.core.2 key summary found)

/-- The source may drop its summaries before and after. -/
theorem Follows.out_of_afresh {source : Tracing α} {target inner : Nat -> Tracing α}
    (steps : forall depth, target (depth + 1) = inner depth)
    (innerGrows : forall depth, Advances Grown program (inner depth))
    (follows : Follows (fun fresh kept => Trusts program declared kept fresh) False program source
      inner) :
    Follows (fun fresh kept => Trusts program declared kept fresh) False program
      (withoutSummaries source) target := by
  intro first ended
  rw [withoutSummaries_run] at ended ⊢
  obtain ⟨enough, agrees⟩ := follows (first.withSummaries ∅)
    (not_exhausted_of_map ended fun _ => rfl)
  refine ⟨enough + 1, fun depth deep second linked admits => ?_⟩
  obtain ⟨lower, rfl⟩ : ∃ lower, depth = lower + 1 := ⟨depth - 1, by omega⟩
  have emptied : Linked (fun fresh kept => Trusts program declared kept fresh)
      (first.withSummaries ∅) second :=
    ⟨linked.tracer, linked.firstQuiet, linked.secondQuiet, linked.core.1, Within.empty _⟩
  have agreed := agrees lower (by omega) second emptied (Or.inl admits.inProgress_eq)
  have grown := innerGrows lower second
  rw [steps]
  have unchanged : Ending.map (inner lower program second) (fun after => after) =
      inner lower program second := by
    cases inner lower program second <;> rfl
  rw [← unchanged]
  refine agreed.map (fun _ => rfl) (fun _ => rfl) ?_
  rintro after final _ rfl ⟨tracer, _, _, reliable, _⟩
  refine ⟨tracer, reliable, fun key summary found => ?_⟩
  exact grown.summaries key summary (linked.core.2 key summary found)

/-- Source and target may both drop their summaries. -/
theorem Follows.both_afresh {source : Tracing α} {target inner : Nat -> Tracing α}
    (steps : forall depth, target (depth + 1) = withoutSummaries (inner depth))
    (follows : Follows SameSummaries False program source inner) :
    Follows SameSummaries False program (withoutSummaries source) target := by
  intro first ended
  rw [withoutSummaries_run] at ended ⊢
  obtain ⟨enough, agrees⟩ := follows (first.withSummaries ∅)
    (not_exhausted_of_map ended fun _ => rfl)
  refine ⟨enough + 1, fun depth deep second linked admits => ?_⟩
  obtain ⟨lower, rfl⟩ : ∃ lower, depth = lower + 1 := ⟨depth - 1, by omega⟩
  have emptied : Linked SameSummaries (first.withSummaries ∅) (second.withSummaries ∅) :=
    ⟨linked.tracer, linked.firstQuiet, linked.secondQuiet, rfl⟩
  have agreed := agrees lower (by omega) (second.withSummaries ∅) emptied
    (Or.inl admits.inProgress_eq)
  rw [steps, withoutSummaries_run]
  refine agreed.map (fun _ => rfl) (fun _ => rfl) ?_
  rintro after final _ _ linkedAfter
  exact ⟨linkedAfter.tracer, linked.core⟩

end Wrapping

section Entering

/-- Two runs agree on a summary that neither of them has, if they build the same. -/
theorem Agrees.keepSummary {source target : Node -> Tracing Deps}
    (missing : first.summaries.find? declaration.key = none)
    (otherMissing : second.summaries.find? declaration.key = none)
    (agreed : Agrees core (buildSummary source declaration program first)
      (buildSummary target declaration program second))
    (kept : forall summary after final,
      buildSummary source declaration program first = .ok summary after ->
      buildSummary target declaration program second = .ok summary final ->
      Linked core after final -> core (after.keepSummary declaration summary).stock
        (final.keepSummary declaration summary).stock) :
    Agrees core (summaryOf source declaration program first)
      (summaryOf target declaration program second) := by
  rw [summaryOf_missing missing, summaryOf_missing otherMissing]
  generalize buildSummary source declaration program first = sourceEnding at agreed kept
  generalize buildSummary target declaration program second = targetEnding at agreed kept
  cases agreed with
  | @value summary after final linked =>
      exact .value ⟨linked.tracer, linked.firstQuiet, linked.secondQuiet,
        kept summary after final rfl rfl linked⟩
  | fault firstQuiet secondQuiet => exact .fault firstQuiet secondQuiet
  | recursive firstLoud secondLoud =>
      refine .recursive ?_ ?_
      · cases sourceEnding <;> exact firstLoud
      · cases targetEnding <;> exact secondLoud

/-- A summary that was not too deep to get was not too deep to build. -/
theorem not_exhausted_buildSummary {trace : Node -> Tracing Deps}
    (missing : first.summaries.find? declaration.key = none)
    (ended : ¬ Exhausted (summaryOf trace declaration program first)) :
    ¬ Exhausted (buildSummary trace declaration program first) := by
  rintro ⟨after, run, quiet⟩
  rw [summaryOf_missing missing, run] at ended
  exact ended ⟨after, rfl, quiet⟩

/-- A memory that admits asking for a missing summary admits building it. -/
theorem Admits.buildSummary {trace : Node -> Tracing Deps}
    (missing : first.summaries.find? declaration.key = none)
    (admits : Admits free first (summaryOf trace declaration program first) second) :
    Admits free first (buildSummary trace declaration program first) second := by
  rcases admits with same | ⟨allowed, summary, after, finished, quiet, apart⟩
  · exact Or.inl same
  · rw [summaryOf_missing missing] at finished
    cases run : Flow.buildSummary trace declaration program first with
    | error fault final =>
        rw [run] at finished
        cases finished
    | ok built final =>
        rw [run] at finished
        cases finished
        refine Or.inr ⟨allowed, summary, final, rfl, quiet, fun key listed => ?_⟩
        have absent := apart key listed
        unfold Memory.keepSummary at absent
        rw [Table.find?_insert] at absent
        split at absent
        · cases absent
        · exact absent

/-- The summaries can still be trusted with one more that was built without a
recursive call. -/
theorem Reliable.keepSummary (calls : CallsDeclared program declared)
    (declares : declared declaration) {trace : Node -> Tracing Deps}
    (grows : forall body, declaration.child? "body" = some body ->
      Advances Grown program (traceReturns trace declaration body))
    (returns : forall body, declaration.child? "body" = some body ->
      Follows (Trusts program declared) True program (traceReturns trace declaration body)
        fun depth => traceReturns (traceAfresh depth) declaration body)
    (reliable : Reliable program declared first.stock)
    (missing : first.summaries.find? declaration.key = none)
    (idle : declaration.key ∉ first.inProgress) {summary : Summary}
    (built : buildSummary trace declaration program first = .ok summary after)
    (quiet : after.Quiet) (reliableAfter : Reliable program declared after.stock) :
    Reliable program declared (after.keepSummary declaration summary).stock := by
  obtain ⟨grown, absent⟩ := Grown.buildSummary grows idle missing
  rw [built] at grown absent
  obtain ⟨same, trusted⟩ :=
    trusted_of_buildSummary calls grows returns reliable missing idle built quiet
  refine reliableAfter.insert declares ?_ absent same trusted
  show declaration.key ∉ after.inProgress
  rw [show after.inProgress = first.inProgress from grown.inProgress]
  exact idle

/-- Entering a summary is followed by entering it afresh. -/
theorem summaryOf_followed_by_afresh (calls : CallsDeclared program declared)
    (apart : KeyedApart declared) (declares : declared declaration) {trace : Node -> Tracing Deps}
    (grows : forall body, declaration.child? "body" = some body ->
      Advances Grown program (traceReturns trace declaration body))
    (returns : forall body, declaration.child? "body" = some body ->
      Follows (Trusts program declared) True program (traceReturns trace declaration body)
        fun depth => traceReturns (traceAfresh depth) declaration body)
    (idle : declaration.key ∉ first.inProgress) :
    FollowsFrom (Trusts program declared) True program first (summaryOf trace declaration)
      fun depth => summaryOf (traceAfresh depth) declaration := by
  intro ended
  by_cases reliable : Reliable program declared first.stock
  · cases found : first.summaries.find? declaration.key with
    | some summary =>
        obtain ⟨listed, sameKey⟩ := reliable.declared _ _ found
        obtain rfl : summary.declaration = declaration := apart _ _ listed declares sameKey
        obtain ⟨enough, builds⟩ := reliable.trusted _ _ found
        rw [summaryOf_found found]
        refine ⟨enough, fun depth deep second linked admits => ?_⟩
        show Agrees _ _ (summaryOf (traceAfresh depth) summary.declaration program second)
        cases otherFound : second.summaries.find? summary.declaration.key with
        | some other =>
            have same := linked.core.2 _ _ otherFound
            rw [show first.stock.summaries.find? summary.declaration.key = some summary from
              found] at same
            cases same
            rw [summaryOf_found otherFound]
            exact .value linked
        | none =>
            have waiting : forall key, key ∈ second.inProgress ->
                first.summaries.find? key = none := by
              rcases admits with same | ⟨_, _, _, ⟨⟩, _, absent⟩
              · rw [same]
                exact reliable.waiting
              · exact absent
            obtain ⟨after, built, tracer, stock, quiet⟩ :=
              builds depth deep second linked.secondQuiet waiting
            rw [summaryOf_missing otherFound, built]
            refine .value ⟨tracer.trans linked.tracer, linked.firstQuiet, quiet, reliable, ?_⟩
            refine Within.insert_left ?_ found
            rw [show after.summaries = second.summaries from congrArg Stock.summaries stock]
            exact linked.core.2
    | none =>
        obtain ⟨enough, agrees⟩ := follows_buildSummary Trusts.nesting grows
          (fun depth body _ => afresh_grows calls depth (Uniform.traceReturns declaration body))
          returns found idle (not_exhausted_buildSummary found ended)
        refine ⟨enough, fun depth deep second linked admits => ?_⟩
        have otherMissing := linked.core.2.missing found
        refine Agrees.keepSummary found otherMissing (agrees depth deep second linked otherMissing
          (admits.idle idle) (admits.buildSummary found)) ?_
        intro summary after final built _ linkedAfter
        exact ⟨reliable.keepSummary calls declares grows returns found idle built
          linkedAfter.firstQuiet linkedAfter.core.1, linkedAfter.core.2.insert _ _⟩
  · exact ⟨0, fun depth _ second linked _ => absurd linked.core.1 reliable⟩

/-- Entering a summary afresh is followed by itself. -/
theorem summaryOf_afresh_followed_by_afresh (calls : CallsDeclared program declared) (depth : Nat)
    (returns : forall body, declaration.child? "body" = some body ->
      Follows SameSummaries False program (traceReturns (traceAfresh depth) declaration body)
        fun depth => traceReturns (traceAfresh depth) declaration body)
    (idle : declaration.key ∉ first.inProgress) :
    FollowsFrom SameSummaries False program first (summaryOf (traceAfresh depth) declaration)
      fun depth => summaryOf (traceAfresh depth) declaration := by
  have grows : forall depth body, declaration.child? "body" = some body ->
      Advances Grown program (traceReturns (traceAfresh depth) declaration body) :=
    fun depth body _ => afresh_grows calls depth (Uniform.traceReturns declaration body)
  intro ended
  cases found : first.summaries.find? declaration.key with
  | some summary =>
      rw [summaryOf_found found]
      refine ⟨0, fun depth _ second linked _ => ?_⟩
      show Agrees _ _ (summaryOf (traceAfresh depth) declaration program second)
      have otherFound : second.summaries.find? declaration.key = some summary := by
        rw [show second.summaries = first.summaries from linked.core]
        exact found
      rw [summaryOf_found otherFound]
      exact .value linked
  | none =>
      obtain ⟨enough, agrees⟩ := follows_buildSummary SameSummaries.nesting (grows depth) grows
        returns found idle (not_exhausted_buildSummary found ended)
      refine ⟨enough, fun depth deep second linked admits => ?_⟩
      have otherMissing : second.summaries.find? declaration.key = none := by
        rw [show second.summaries = first.summaries from linked.core]
        exact found
      refine Agrees.keepSummary found otherMissing (agrees depth deep second linked otherMissing
        (admits.idle idle) (admits.buildSummary found)) ?_
      intro summary after final _ _ linkedAfter
      exact congrArg (fun summaries => summaries.insert declaration.key summary) linkedAfter.core

/-- Entering a summary afresh gives the one that is kept. -/
theorem summaryOf_afresh_agrees_kept (depth : Nat)
    (stable : ¬ Exhausted (buildSummary (traceAfresh depth) declaration program first) ->
      ∃ enough, forall deeper, enough <= deeper ->
        Agrees SameSummaries (buildSummary (traceAfresh depth) declaration program first)
          (buildSummary (traceAfresh deeper) declaration program first))
    (ended : ¬ Exhausted (summaryOf (traceAfresh depth) declaration program first))
    (missing : first.summaries.find? declaration.key = none)
    (linked : Linked (fun fresh kept => Trusts program declared kept fresh) first second)
    (same : second.inProgress = first.inProgress) {summary : Summary}
    (found : second.summaries.find? declaration.key = some summary)
    (declares : summary.declaration = declaration) :
    Agrees (fun fresh kept => Trusts program declared kept fresh)
      (summaryOf (traceAfresh depth) declaration program first) (.ok summary second) := by
  obtain ⟨reliable, within⟩ := linked.core
  obtain ⟨enough, builds⟩ := reliable.trusted _ _ found
  obtain ⟨more, agrees⟩ := stable (not_exhausted_buildSummary missing ended)
  have waiting : forall key, key ∈ first.inProgress -> second.summaries.find? key = none := by
    rw [← same]
    exact reliable.waiting
  -- deep enough, building afresh gives the kept summary
  obtain ⟨after, built, tracer, stock, quiet⟩ :=
    builds (max enough more) (Nat.le_max_left ..) first linked.firstQuiet waiting
  have agreed := agrees (max enough more) (Nat.le_max_right ..)
  rw [declares] at built
  rw [built] at agreed
  rw [summaryOf_missing missing]
  generalize buildSummary (traceAfresh depth) declaration program first = ending at agreed
  cases agreed with
  | recursive _ secondLoud => exact absurd quiet secondLoud
  | @value _ final _ linkedAfter =>
      refine .value ⟨?_, linkedAfter.firstQuiet, linked.secondQuiet, reliable, ?_⟩
      · exact linked.tracer.trans (tracer.symm.trans linkedAfter.tracer)
      · refine Within.insert_left ?_ found
        have summaries : final.summaries = first.summaries :=
          (show after.summaries = final.summaries from linkedAfter.core).symm.trans
            (congrArg Stock.summaries stock)
        rw [summaries]
        exact within

/-- Entering a summary afresh is followed by entering a kept one. -/
theorem summaryOf_afresh_followed_by_kept (calls : CallsDeclared program declared)
    (apart : KeyedApart declared) (declares : declared declaration) (depth : Nat)
    {target : Nat -> Node -> Tracing Deps}
    (grows : forall depth body, declaration.child? "body" = some body ->
      Advances Grown program (traceReturns (target depth) declaration body))
    (trusts : forall depth body, declaration.child? "body" = some body ->
      Follows (Trusts program declared) True program (traceReturns (target depth) declaration body)
        fun depth => traceReturns (traceAfresh depth) declaration body)
    (stable : forall body, declaration.child? "body" = some body ->
      Follows SameSummaries False program (traceReturns (traceAfresh depth) declaration body)
        fun depth => traceReturns (traceAfresh depth) declaration body)
    (returns : forall body, declaration.child? "body" = some body ->
      Follows (fun fresh kept => Trusts program declared kept fresh) False program
        (traceReturns (traceAfresh depth) declaration body) fun depth =>
          traceReturns (target depth) declaration body)
    (idle : declaration.key ∉ first.inProgress) :
    FollowsFrom (fun fresh kept => Trusts program declared kept fresh) False program first
      (summaryOf (traceAfresh depth) declaration) fun depth =>
        summaryOf (target depth) declaration := by
  have afreshGrows : forall depth body, declaration.child? "body" = some body ->
      Advances Grown program (traceReturns (traceAfresh depth) declaration body) :=
    fun depth body _ => afresh_grows calls depth (Uniform.traceReturns declaration body)
  intro ended
  cases found : first.summaries.find? declaration.key with
  | some summary =>
      rw [summaryOf_found found]
      refine ⟨0, fun depth _ second linked _ => ?_⟩
      show Agrees _ _ (summaryOf (target depth) declaration program second)
      rw [summaryOf_found (linked.core.2 _ _ found)]
      exact .value linked
  | none =>
      obtain ⟨enough, agrees⟩ := follows_buildSummary Trusts.nesting_flipped (afreshGrows depth)
        grows returns found idle (not_exhausted_buildSummary found ended)
      refine ⟨enough, fun deeper deep second linked admits => ?_⟩
      show Agrees _ _ (summaryOf (target deeper) declaration program second)
      cases otherFound : second.summaries.find? declaration.key with
      | some summary =>
          rw [summaryOf_found otherFound]
          obtain ⟨listed, sameKey⟩ := linked.core.1.declared _ _ otherFound
          refine summaryOf_afresh_agrees_kept depth ?_ ended found linked admits.inProgress_eq otherFound
            (apart _ _ listed declares sameKey)
          intro unfinished
          obtain ⟨more, again⟩ := follows_buildSummary SameSummaries.nesting (afreshGrows depth)
            afreshGrows stable found idle unfinished
          exact ⟨more, fun deeper deep => again deeper deep first
            ⟨rfl, linked.firstQuiet, linked.firstQuiet, rfl⟩ found idle (Or.inl rfl)⟩
      | none =>
          refine Agrees.keepSummary found otherFound (agrees deeper deep second linked otherFound
            (admits.idle idle) (admits.buildSummary found)) ?_
          intro summary after final _ built linkedAfter
          exact ⟨linked.core.1.keepSummary calls declares (grows deeper) (trusts deeper) otherFound
            (admits.idle idle) built linkedAfter.secondQuiet linkedAfter.core.1,
            linkedAfter.core.2.insert _ _⟩

end Entering

/-- Tracing with kept summaries is followed by tracing afresh. -/
theorem visitor_followed_by_afresh (calls : CallsDeclared program declared)
    (apart : KeyedApart declared) (depth : Nat) {step : Visitor -> Tracing α}
    (uniform : Uniform program declared step) :
    Follows (Trusts program declared) True program (step (visitor depth)) fun depth =>
      step (afresh depth) := by
  induction depth generalizing α with
  | zero =>
      refine uniform.follows (visitor_grows calls 0) (fun uniform depth =>
        afresh_grows calls depth uniform) (fun node => Follows.tooDeep _)
        (fun name node => Follows.tooDeep _) ?_
      intro declaration declares returns first idle
      exact summaryOf_followed_by_afresh calls apart declares
        (fun body _ => visitor_grows calls 0 (Uniform.traceReturns declaration body)) returns idle
  | succ depth inductionHypothesis =>
      refine uniform.follows (visitor_grows calls (depth + 1)) (fun uniform depth =>
        afresh_grows calls depth uniform) (fun node => ?_) (fun name node => ?_) ?_
      · have rule := Uniform.traceNode node (calls node)
        exact Follows.into_afresh (fun _ => rfl) (visitor_grows calls depth rule)
          (inductionHypothesis rule)
      · have rule : Uniform program declared _ := Uniform.traceDefinition name node
        exact Follows.into_afresh (fun _ => rfl) (visitor_grows calls depth rule)
          (inductionHypothesis rule)
      · intro declaration declares returns first idle
        exact summaryOf_followed_by_afresh calls apart declares
          (fun body _ => visitor_grows calls (depth + 1) (Uniform.traceReturns declaration body))
          returns idle

/-- Tracing afresh comes to the same end when it may go deeper. -/
theorem afresh_followed_by_afresh (calls : CallsDeclared program declared) (depth : Nat)
    {step : Visitor -> Tracing α} (uniform : Uniform program declared step) :
    Follows SameSummaries False program (step (afresh depth)) fun depth => step (afresh depth) := by
  induction depth generalizing α with
  | zero =>
      refine uniform.follows (afresh_grows calls 0) (fun uniform depth =>
        afresh_grows calls depth uniform) (fun node => Follows.tooDeep _)
        (fun name node => Follows.tooDeep _) ?_
      intro declaration _ returns first idle
      exact summaryOf_afresh_followed_by_afresh calls 0 returns idle
  | succ depth inductionHypothesis =>
      refine uniform.follows (afresh_grows calls (depth + 1)) (fun uniform depth =>
        afresh_grows calls depth uniform) (fun node => ?_) (fun name node => ?_) ?_
      · exact Follows.both_afresh (fun _ => rfl)
          (inductionHypothesis (Uniform.traceNode node (calls node)))
      · exact Follows.both_afresh (fun _ => rfl)
          (inductionHypothesis (Uniform.traceDefinition name node))
      · intro declaration _ returns first idle
        exact summaryOf_afresh_followed_by_afresh calls (depth + 1) returns idle

/-- Tracing afresh is followed by tracing with kept summaries. -/
theorem afresh_followed_by_visitor (calls : CallsDeclared program declared)
    (apart : KeyedApart declared) (depth : Nat) {step : Visitor -> Tracing α}
    (uniform : Uniform program declared step) :
    Follows (fun fresh kept => Trusts program declared kept fresh) False program
      (step (afresh depth)) fun depth => step (visitor depth) := by
  have enters : forall depth declaration, declared declaration ->
      (forall body, declaration.child? "body" = some body ->
        Follows (fun fresh kept => Trusts program declared kept fresh) False program
          (traceReturns (traceAfresh depth) declaration body) fun depth =>
            traceReturns (traceWithin depth) declaration body) ->
      forall first, declaration.key ∉ first.inProgress ->
        FollowsFrom (fun fresh kept => Trusts program declared kept fresh) False program first
          (summaryOf (traceAfresh depth) declaration) fun depth =>
            summaryOf (traceWithin depth) declaration := by
    intro depth declaration declares returns first idle
    have rule : forall body, Uniform program declared fun visitor =>
        traceReturns visitor.trace declaration body := Uniform.traceReturns declaration
    exact summaryOf_afresh_followed_by_kept calls apart declares depth
      (fun depth body _ => visitor_grows calls depth (rule body))
      (fun depth body _ => visitor_followed_by_afresh calls apart depth (rule body))
      (fun body _ => afresh_followed_by_afresh calls depth (rule body)) returns idle
  induction depth generalizing α with
  | zero =>
      exact uniform.follows (afresh_grows calls 0) (fun uniform depth =>
        visitor_grows calls depth uniform) (fun node => Follows.tooDeep _)
        (fun name node => Follows.tooDeep _) (enters 0)
  | succ depth inductionHypothesis =>
      refine uniform.follows (afresh_grows calls (depth + 1)) (fun uniform depth =>
        visitor_grows calls depth uniform) (fun node => ?_) (fun name node => ?_)
        (enters (depth + 1))
      · have rule := Uniform.traceNode node (calls node)
        exact Follows.out_of_afresh (fun _ => rfl) (fun depth => visitor_grows calls depth rule)
          (inductionHypothesis rule)
      · have rule : Uniform program declared _ := Uniform.traceDefinition name node
        exact Follows.out_of_afresh (fun _ => rfl) (fun depth => visitor_grows calls depth rule)
          (inductionHypothesis rule)

/-- One memory has grown from another, and its summaries can be trusted if those of
the other could and no call was recursive. -/
structure KeepsTrust (program : Program) (declared : Node -> Prop) (before after : Memory) :
    Prop where
  grown : Grown before after
  reliable : after.Quiet -> Reliable program declared before.stock ->
    Reliable program declared after.stock

/-- Trust is kept by every step of a run. -/
theorem KeepsTrust.advance : Advance (KeepsTrust program declared) where
  refl memory := ⟨Grown.advance.refl memory, fun _ reliable => reliable⟩
  trans _ _ _ first second := by
    refine ⟨Grown.advance.trans _ _ _ first.grown second.grown, fun quiet reliable => ?_⟩
    exact second.reliable quiet (first.reliable (second.grown.quiet quiet) reliable)
  tracer _ _ _ _ keeps := ⟨Grown.advance.tracer _ _ _ _ keeps.grown, keeps.reliable⟩
  remark memory text := ⟨Grown.advance.remark memory text, fun _ reliable => reliable⟩

/-- Building a summary keeps trust if tracing the return statements does. -/
theorem KeepsTrust.buildSummary {trace : Node -> Tracing Deps}
    (returns : forall body, declaration.child? "body" = some body ->
      Advances (KeepsTrust program declared) program (traceReturns trace declaration body))
    (idle : declaration.key ∉ memory.inProgress)
    (missing : memory.summaries.find? declaration.key = none)
    (reliable : Reliable program declared memory.stock) {ending : Ending Summary}
    (built : buildSummary trace declaration program memory = ending)
    (quiet : ending.memory.Quiet) : Reliable program declared ending.memory.stock := by
  cases found : declaration.child? "body" with
  | none =>
      rw [buildSummary_without_body found] at built
      subst built
      exact reliable
  | some body =>
      have keeps := returns body found (memory.enter declaration)
      rw [buildSummary_built found] at built
      have left : forall after : Memory, KeepsTrust program declared (memory.enter declaration) after ->
          after.Quiet -> Reliable program declared (after.leave memory declaration).stock := by
        intro after keeps quiet
        have inside := keeps.reliable quiet (reliable.nest missing)
        have outer := inside.unnest keeps.grown.inProgress
        unfold Memory.stock
        rw [show (after.leave memory declaration).inProgress = memory.inProgress from
          (keeps.grown.leave idle).inProgress]
        exact outer
      cases run : traceReturns trace declaration body program (memory.enter declaration) with
      | error fault after =>
          rw [run] at keeps built
          subst built
          exact left after keeps quiet
      | ok result after =>
          rw [run] at keeps built
          subst built
          exact left after keeps (Ending.quiet_of_built quiet)

/-- Entering a summary keeps trust if tracing its return statements does. -/
theorem KeepsTrust.summaryOf (calls : CallsDeclared program declared)
    (declares : declared declaration) {trace : Node -> Tracing Deps}
    (returns : forall body, declaration.child? "body" = some body ->
      Advances (KeepsTrust program declared) program (traceReturns trace declaration body))
    (follows : forall body, declaration.child? "body" = some body ->
      Follows (Trusts program declared) True program (traceReturns trace declaration body)
        fun depth => traceReturns (traceAfresh depth) declaration body)
    (idle : declaration.key ∉ memory.inProgress) :
    KeepsTrust program declared memory
      (Ending.memory (summaryOf trace declaration program memory)) := by
  have grows : forall body, declaration.child? "body" = some body ->
      Advances Grown program (traceReturns trace declaration body) :=
    fun body found memory => (returns body found memory).grown
  refine ⟨Grown.summaryOf grows idle, ?_⟩
  cases found : memory.summaries.find? declaration.key with
  | some summary =>
      rw [summaryOf_found found]
      exact fun _ reliable => reliable
  | none =>
      rw [summaryOf_missing found]
      intro quiet reliable
      have built := KeepsTrust.buildSummary returns idle found reliable rfl
      cases run : Flow.buildSummary trace declaration program memory with
      | error fault after =>
          rw [run] at built quiet
          exact built quiet
      | ok summary after =>
          rw [run] at built quiet
          exact reliable.keepSummary calls declares grows follows found idle run quiet (built quiet)

/-- Without a recursive call, the summaries that tracing leaves can be trusted,
however it ends. -/
theorem visitor_keepsTrust (calls : CallsDeclared program declared) (apart : KeyedApart declared)
    (depth : Nat) {step : Visitor -> Tracing α} (uniform : Uniform program declared step) :
    Advances (KeepsTrust program declared) program (step (visitor depth)) := by
  have enters : forall depth declaration, declared declaration ->
      (forall body, declaration.child? "body" = some body ->
        Advances (KeepsTrust program declared) program
          (traceReturns (traceWithin depth) declaration body)) ->
      forall memory, declaration.key ∉ memory.inProgress -> KeepsTrust program declared memory
        (Ending.memory (summaryOf (traceWithin depth) declaration program memory)) := by
    intro depth declaration declares returns memory idle
    exact KeepsTrust.summaryOf calls declares returns (fun body _ =>
      visitor_followed_by_afresh calls apart depth (Uniform.traceReturns declaration body)) idle
  induction depth generalizing α with
  | zero =>
      refine uniform.advances KeepsTrust.advance (fun node => ?_) (fun name node => ?_) (enters 0)
      · exact KeepsTrust.advance.refl
      · exact KeepsTrust.advance.refl
  | succ depth inductionHypothesis =>
      exact uniform.advances KeepsTrust.advance
        (fun node => inductionHypothesis (Uniform.traceNode node (calls node)))
        (fun name node => inductionHypothesis (Uniform.traceDefinition name node))
        (enters (depth + 1))

end PhpTaint.Flow
