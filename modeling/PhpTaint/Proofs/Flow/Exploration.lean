import PhpTaint.Proofs.Flow.Search

/-!
# Tracing as a search

If the traces that an expression or a definition starts search the graph, then so
does its own. `Explorer` lists these traces; `traceNode_explores` and
`traceDefinition_explores` are the two rules, and `visitor_explores` concludes by
induction on the depth that every trace is a search.
-/

namespace PhpTaint.Flow

open Scopes Syntax Rules

/-- A step of tracing searches from a site, or it fails. -/
def Explores (search : Search) (memory : Memory) (step : Tracing Deps) (site : Site) : Prop :=
  Concludes search.program memory step
    (fun deps after => Progress search memory (search.quest.Shows deps) after ∧
      Covered search (Knows after) (search.quest.Shows deps) site)
    (fun fault _ => search.Fails fault)

/-- The traces that a search starts search as well. -/
structure Explorer (search : Search) (visitor : Visitor) : Prop where
  trace : forall node memory, search.InReach (.expression node) -> Primed search memory ->
    Explores search memory (visitor.trace node) (.expression node)
  definition : forall name definition memory, definition ∈ search.nodes ->
    name ∈ definition.definedNames -> search.InReach (.variable name (.referent definition)) ->
    Primed search memory ->
      Concludes search.program memory (visitor.definition name definition)
        (fun deps after => Progress search memory (search.quest.Shows deps) after ∧
          Searched search (Knows after) (search.quest.Shows deps)
            (.variable name (.referent definition)))
        (fun fault _ => search.Fails fault)

variable {search : Search} {visitor : Visitor} {memory : Memory} {node : Node} {name : String}

section Variables

/-- A definition that has been followed is known. -/
theorem isSome_keepTraced {after : Memory} {definition key : Key} {deps : Deps} :
    (((after.release definition).keepTraced definition deps).tracer.traced.find? key).isSome =
      true ↔ key = definition ∨ (after.tracer.traced.find? key).isSome = true := by
  show ((after.tracer.traced.insert definition deps).find? key).isSome = true ↔ _
  rw [Table.find?_insert]
  by_cases same : key = definition
  · simp [same]
  · simp [same]

/-- Whether a definition was followed before, is being followed or is followed
now, it is known afterwards. -/
theorem followDefinition_explores (explorer : Explorer search visitor)
    (primed : Primed search memory) {definition : Node} (member : definition ∈ search.nodes)
    (defines : name ∈ definition.definedNames)
    (reaches : search.InReach (.variable name (.referent definition))) :
    Explores search memory (followDefinition visitor.definition name definition)
      (.variable name (.referent definition)) := by
  have learned := primed.toLearned
  refine Concludes.followDefinition_of ?_ ?_ ?_
  · intro deps followed
    exact ⟨.refl learned (learned.traced _ deps followed),
      .definition (Or.inl (by rw [followed]; rfl))⟩
  · intro journal _ following
    refine ⟨.of_eq (learned.of_eq rfl rfl rfl rfl) rfl (fun _ _ _ found => found) rfl ?_,
      .definition (Or.inr following)⟩
    exact fun _ shown => absurd shown Quest.not_shows_empty
  · intro _ inactive
    refine Concludes.mono (explorer.definition name definition _ member defines reaches
      (primed.activate definition.key)) ?_ fun _ _ faulty => faulty
    rintro deps after ⟨progress, searched⟩
    have active := Memory.active_release progress.active inactive
    have knows : forall key, Knows after key ->
        Knows ((after.release definition.key).keepTraced definition.key deps) key := by
      rintro key (followed | following)
      · exact Or.inl (isSome_keepTraced.2 (Or.inr followed))
      · rw [progress.active] at following
        rcases List.mem_cons.1 following with same | outer
        · exact Or.inl (isSome_keepTraced.2 (Or.inl same))
        · refine Or.inr ?_
          exact active.symm ▸ outer
    refine ⟨⟨?_, active, progress.records, ?_, ?_, progress.sound⟩,
      .definition (Or.inl (isSome_keepTraced.2 (Or.inl rfl)))⟩
    · refine ⟨progress.learned.parameters, progress.learned.followsCalls,
        progress.learned.records, ?_⟩
      intro key found inserted
      have inserted : (after.tracer.traced.insert definition.key deps).find? key = some found :=
        inserted
      rw [Table.find?_insert] at inserted
      split at inserted
      · cases inserted
        exact progress.sound
      · exact progress.learned.traced key found inserted
    · intro key followed
      exact isSome_keepTraced.2 (Or.inr (progress.keeps key followed))
    · intro key followed
      rcases isSome_keepTraced.1 followed with same | earlier
      · exact Or.inr ⟨definition, member, same.symm, fun _ =>
          (searched.mono knows fun _ found => found).rename⟩
      · rcases progress.finished key earlier with old | ⟨other, otherMember, same, done⟩
        · exact Or.inl old
        · exact Or.inr ⟨other, otherMember, same, fun input =>
            (done input).mono knows fun _ found => found⟩

/-- A record with a binding in reach is followed to what its binding leads to. -/
theorem followRecord_explores (grounded : Grounded search.nodes search.program)
    (explorer : Explorer search visitor) (primed : Primed search memory) {record : LeafRecord}
    {binding : Binding Node} (suits : SuitsRecord search.nodes name record)
    (bound : record.definition = some binding)
    (reaches : search.InReach (.variable name binding)) :
    Explores search memory (followRecord visitor.definition record) (.variable name binding) := by
  have onward := reaches.followedBinding
  refine Concludes.followRecord_of ?_ ?_
  · intro deps journal origin
    rw [primed.parameters, recordOrigin_of_bound [] bound, suits.named] at origin
    refine ⟨.of_eq (primed.toLearned.of_eq rfl rfl rfl rfl) rfl (fun _ _ _ found => found) rfl ?_,
      (covered_of_bindingOrigin followedBinding_followedBinding origin).of_followedBinding⟩
    intro leaf shown
    exact ⟨_, onward, (Quest.shows_of_bindingOrigin followedBinding_followedBinding origin).1 shown⟩
  · intro definition origin
    obtain ⟨member, defines⟩ := definition_of_recordOrigin grounded suits origin
    rw [recordOrigin_of_bound _ bound] at origin
    have isDefinition := eq_referent_of_bindingOrigin origin
    rw [isDefinition] at onward
    rw [suits.named]
    refine Concludes.mono (followDefinition_explores explorer primed member defines onward) ?_
      fun _ _ faulty => faulty
    rintro deps after ⟨progress, covered⟩
    rw [← isDefinition] at covered
    exact ⟨progress, covered.of_followedBinding⟩

/-- A name is looked up where it is read. -/
theorem lookupVariable_finds (learned : Learned search memory)
    (reaches : search.InReach (.expression node)) (isVariable : node.form = .variableName) :
    Concludes search.program memory (lookupVariable node.text node)
      (fun record after => FromReach search node.text record ∧
        Progress search memory (fun _ => False) after ∧
        forall binding, ReadsBinding search.program node binding -> record.definition = binding)
      (fun fault _ => search.Fails fault) := by
  have shown : forall scope binding,
      search.program.registry.scopeOf search.program.globalScope node = .ok scope ->
      search.program.registry.visible scope node.text = binding ->
      (search.program.rules.isInputVariable node.text = false ->
        BoundInReach search.program search.root node.text binding) ∧
      forall other, ReadsBinding search.program node other -> binding = other := by
    intro scope binding located visible
    refine ⟨fun notInput => ⟨node, reaches, rfl, isVariable, notInput, scope, located, visible⟩, ?_⟩
    intro other reads
    exact visible.symm.trans (reads.seen located)
  refine Concludes.lookupVariable_of ?_ ?_ ?_
  · intro fault missing
    exact Or.inr ⟨_, node, reaches, Or.inl (.read isVariable), missing⟩
  · intro scope binding located visible
    obtain ⟨bound, here⟩ := shown scope _ located visible
    exact ⟨⟨rfl, fun _ => nofun, bound⟩, .refl learned nofun, here⟩
  · intro scope journal located visible
    obtain ⟨bound, here⟩ := shown scope _ located visible
    exact ⟨⟨rfl, fun _ => nofun, bound⟩, .of_eq (learned.of_eq rfl rfl rfl rfl) rfl
      (fun _ _ _ found => found) rfl nofun, here⟩

/-- A name that is read has a record, that of the first reading. -/
theorem resolveVariable_finds (learned : Learned search memory)
    (reaches : search.InReach (.expression node)) (isVariable : node.form = .variableName) :
    Concludes search.program memory (resolveVariable node.text node)
      (fun record after => FromReach search node.text record ∧
        Progress search memory (fun _ => False) after ∧
        after.tracer.records.find? node.text = some record)
      (fun fault _ => search.Fails fault) := by
  refine Concludes.resolveVariable_of ?_ ?_ ?_
  · intro record found
    exact ⟨learned.records _ record found, .refl learned nofun, found⟩
  · intro _ isParameter
    rw [learned.parameters] at isParameter
    cases isParameter
  · intro absent _
    refine Concludes.mono (lookupVariable_finds learned reaches isVariable) ?_
      fun _ _ faulty => faulty
    rintro record after ⟨fromReach, looked, _⟩
    refine ⟨fromReach, ⟨looked.learned.keepRecord fromReach, looked.active, ?_, looked.keeps,
      looked.finished, looked.sound⟩, Table.find?_insert_self ..⟩
    intro other found notInput listed
    have different : other ≠ node.text := by
      rintro rfl
      rw [absent] at listed
      cases listed
    exact (Table.find?_insert_of_ne _ _ different).trans
      (looked.records other found notInput listed)

/-- A variable that is read leads to its binding, in an exact search to the one
that it has there. -/
theorem followRead_explores (grounded : Grounded search.nodes search.program)
    (explorer : Explorer search visitor) (primed : Primed search memory)
    (isVariable : node.form = .variableName)
    (notInput : search.program.rules.isInputVariable node.text = false) {record : LeafRecord}
    (fromReach : FromReach search node.text record)
    (here : search.exact -> forall binding, ReadsBinding search.program node binding ->
      record.definition = binding) :
    Explores search memory (followRecord visitor.definition record) (.expression node) := by
  obtain ⟨read, readReaches, sameText, reads⟩ := fromReach.bound notInput
  have covers : forall known met,
      (record.definition = none -> search.quest = .leaves -> met node.text) ->
      (forall binding, record.definition = some binding ->
        Covered search known met (.variable node.text binding)) ->
      Covered search known met (.expression node) := by
    intro known met unbound bindings
    by_cases isExact : search.exact
    · refine .site ?_ ?_
      · intro leaf lies
        obtain ⟨looksForLeaves, rfl, unread⟩ := (Quest.liesAt_read_iff isVariable notInput).1 lies
        exact unbound (here isExact _ unread) looksForLeaves
      · intro next step
        cases step with
        | part member => simp [valueParts, isVariable] at member
        | read shown => exact bindings _ (here isExact _ shown)
    · exact .loose isExact isVariable
  cases found : record.definition with
  | none =>
      rw [found] at reads covers
      have origin : recordOrigin search.program.registry memory.tracer.parameters record =
          .leaf (Dependencies.single record.name record) := by
        unfold recordOrigin
        rw [found]
      have shows : forall leaf, search.quest.Shows (Dependencies.single record.name record) leaf ↔
          search.quest = .leaves ∧ leaf = node.text := by
        intro leaf
        rw [← fromReach.named]
        exact Quest.shows_single_of_not_tainted (fromReach.untainted notInput)
      refine Concludes.followRecord_of ?_ ?_
      · intro deps journal leafOrigin
        rw [origin] at leafOrigin
        cases leafOrigin
        refine ⟨.of_eq (primed.toLearned.of_eq rfl rfl rfl rfl) rfl (fun _ _ _ found => found) rfl
          ?_, covers _ _ ?_ ?_⟩
        · intro leaf shown
          obtain ⟨looksForLeaves, rfl⟩ := (shows leaf).1 shown
          exact ⟨_, readReaches, (Quest.liesAt_read_iff reads.isVariable reads.notInput).2
            ⟨looksForLeaves, sameText.symm, reads⟩⟩
        · intro _ looksForLeaves
          exact (shows _).2 ⟨looksForLeaves, rfl⟩
        · intro binding absent
          cases absent
      · intro definition isDefinition
        rw [origin] at isDefinition
        cases isDefinition
  | some binding =>
      rw [found] at reads covers
      obtain ⟨scope, _, visible⟩ := reads.visible
      have suits : SuitsRecord search.nodes node.text record := by
        refine ⟨fromReach.named, ?_⟩
        intro other same
        rw [found] at same
        cases same
        rw [← sameText]
        exact grounded.sound.suits_of_visible visible
      have onward : search.InReach (.variable node.text binding) := by
        rw [← sameText]
        exact readReaches.step (.read reads)
      refine Concludes.mono (followRecord_explores grounded explorer primed suits found onward) ?_
        fun _ _ faulty => faulty
      rintro deps after ⟨progress, covered⟩
      refine ⟨progress, covers _ _ ?_ ?_⟩
      · intro absent
        cases absent
      · intro other same
        cases same
        exact covered

/-- An input is looked up for its name, the input that its reading meets. -/
theorem readInput_explores {before : Memory}
    (resolved : Progress search before (fun _ => False) memory)
    (reaches : search.InReach (.expression node)) (isVariable : node.form = .variableName)
    (isInput : search.program.rules.isInputVariable node.text = true) {record : LeafRecord}
    (fromReach : FromReach search node.text record) :
    let input : LeafRecord := { record with level := .tainted }
    let deps : Deps := Dependencies.single node.text input
    Progress search before (search.quest.Shows deps) (memory.keepRecord node.text input) ∧
      forall known, Covered search known (search.quest.Shows deps) (.expression node) := by
  intro input deps
  have shows : forall leaf, search.quest.Shows deps leaf ↔ leaf = node.text :=
    fun _ => Quest.shows_single_of_tainted rfl
  have listed : Learned search (memory.keepRecord node.text input) := by
    refine resolved.learned.keepRecord ⟨fromReach.named, ?_, fromReach.bound⟩
    intro notInput
    rw [isInput] at notInput
    cases notInput
  refine ⟨resolved.after_nothing (.of_eq listed rfl ?_ rfl ?_), fun known => .site ?_ ?_⟩
  · intro other found notInput held
    have different : other ≠ node.text := by
      rintro rfl
      rw [isInput] at notInput
      cases notInput
    exact (Table.find?_insert_of_ne _ _ different).trans held
  · intro leaf shown
    exact ⟨_, reaches, (Quest.liesAt_input_iff isVariable isInput).2 ((shows leaf).1 shown)⟩
  · intro leaf lies
    exact (shows leaf).2 ((Quest.liesAt_input_iff isVariable isInput).1 lies)
  · intro next step
    cases step with
    | part member => simp [valueParts, isVariable] at member
    | read shown =>
        rw [shown.notInput] at isInput
        cases isInput

/-- A variable whose first binding is being followed is looked up afresh. In this way
every reading of an exact search finds the binding that it has. -/
theorem readAfresh_finds (primed : Primed search memory)
    (reaches : search.InReach (.expression node)) (isVariable : node.form = .variableName)
    (notInput : search.program.rules.isInputVariable node.text = false) {record : LeafRecord}
    (fromReach : FromReach search node.text record)
    (kept : memory.tracer.records.find? node.text = some record) :
    Concludes search.program memory
      (if isActive memory.tracer record.definition then lookupVariable node.text node
        else pure record)
      (fun shown after => FromReach search node.text shown ∧
        Progress search memory (fun _ => False) after ∧
        (search.exact -> forall binding, ReadsBinding search.program node binding ->
          shown.definition = binding))
      (fun fault _ => search.Fails fault) := by
  split
  · refine Concludes.mono (lookupVariable_finds primed.toLearned reaches isVariable) ?_
      fun _ _ faulty => faulty
    rintro shown after ⟨found, looked, here⟩
    exact ⟨found, looked, fun _ => here⟩
  · rename_i inactive
    refine ⟨fromReach, .refl primed.toLearned fun _ => False.elim, ?_⟩
    intro isExact binding shown
    rcases primed.settled isExact _ notInput with one | ⟨other, listed, following⟩
    · obtain ⟨read, readReaches, sameText, reads⟩ := fromReach.bound notInput
      exact one read node _ _ readReaches reaches sameText rfl reads shown
    · rw [kept] at listed
      cases listed
      exact absurd following inactive

/-- A variable is searched if its binding is. -/
theorem traceVariable_explores (grounded : Grounded search.nodes search.program)
    (explorer : Explorer search visitor) (primed : Primed search memory)
    (reaches : search.InReach (.expression node)) (isVariable : node.form = .variableName) :
    Explores search memory (traceVariable visitor.definition node) (.expression node) := by
  refine Concludes.traceVariable_of ?_
  refine Concludes.mono (resolveVariable_finds primed.toLearned reaches isVariable) ?_
    fun _ _ faulty => faulty
  rintro record after ⟨fromReach, resolved, kept⟩
  cases isInput : search.program.rules.isInputVariable node.text with
  | true =>
      simp only [if_true]
      obtain ⟨progress, covered⟩ :=
        readInput_explores resolved reaches isVariable isInput fromReach
      exact ⟨progress, covered _⟩
  | false =>
      simp only [Bool.false_eq_true, if_false]
      have primedAfter := primed.progress resolved
      refine Concludes.mono
        (readAfresh_finds primedAfter reaches isVariable isInput fromReach kept) ?_
        fun _ _ faulty => faulty
      rintro shown final ⟨found, looked, here⟩
      refine Concludes.mono (followRead_explores grounded explorer (primedAfter.progress looked)
        isVariable isInput found here) ?_ fun _ _ faulty => faulty
      rintro deps last ⟨progress, covered⟩
      exact ⟨resolved.after_nothing (looked.after_nothing progress), covered⟩

end Variables

section Expressions

/-- Parts are searched one after the other. -/
theorem mapM_explores (explorer : Explorer search visitor) (primed : Primed search memory)
    {parts : List Node}
    (reaches : forall part, part ∈ parts -> search.InReach (.expression part)) :
    Concludes search.program memory (parts.mapM visitor.trace)
      (fun results after => Progress search memory (search.quest.ShownIn results) after ∧
        forall part, part ∈ parts ->
          Covered search (Knows after) (search.quest.ShownIn results) (.expression part))
      (fun fault _ => search.Fails fault) := by
  refine Concludes.mapM
    (fun done results after => Progress search memory (search.quest.ShownIn results) after ∧
      forall part, part ∈ done ->
        Covered search (Knows after) (search.quest.ShownIn results) (.expression part)) ?_ ?_
  · refine ⟨.refl primed.toLearned ?_, nofun⟩
    rintro leaf ⟨deps, member, _⟩
    cases member
  · rintro done part rest partsEq results after ⟨progress, covered⟩
    have member : part ∈ parts := by simp [partsEq]
    refine Concludes.mono
      (explorer.trace part after (reaches part member) (primed.progress progress)) ?_
      fun _ _ faulty => faulty
    rintro deps final ⟨further, here⟩
    have together := progress.trans further
    refine ⟨together.mono (fun _ => Quest.shownIn_append_singleton.2)
      fun leaf found => together.sound leaf (Quest.shownIn_append_singleton.1 found), ?_⟩
    intro other listed
    rcases List.mem_append.1 listed with old | new
    · exact (covered other old).mono (fun _ known => further.knows known)
        fun _ found => Quest.shownIn_append_singleton.2 (Or.inl found)
    · cases List.mem_singleton.1 new
      exact here.mono (fun _ known => known)
        fun _ found => Quest.shownIn_append_singleton.2 (Or.inr found)

/-- Tracing an expression in reach is tracing its parts, or it fails. -/
theorem traceNode_parts (grounded : Grounded search.nodes search.program)
    (entersNone : EntersNoFunction search.program search.root search.followsCalls)
    (learned : Learned search memory) (reaches : search.InReach (.expression node))
    (notVariable : node.form ≠ .variableName) {good : Deps -> Memory -> Prop}
    (parts : Concludes search.program (memory.noted search.program.rules node)
      ((valueParts search.program.rules node).mapM visitor.trace)
      (fun results after => good (joinParts search.program.rules node results) after)
      fun fault _ => search.Fails fault) :
    Concludes search.program memory (traceNode visitor node) good
      fun fault _ => search.Fails fault := by
  by_cases follows : search.followsCalls = true
  · refine traceNode_uncalled grounded notVariable (entersNone follows node reaches) ?_ parts
    intro isCall fault missing
    exact Or.inr ⟨_, node, reaches, Or.inr ⟨follows, rfl, isCall⟩, missing⟩
  · refine (Concludes.traceNode_iff notVariable fun _ => ?_).2 parts
    exact learned.followsCalls.trans (Bool.eq_false_iff.2 follows)

/-- An expression is searched if its parts are. -/
theorem traceNode_explores (grounded : Grounded search.nodes search.program)
    (entersNone : EntersNoFunction search.program search.root search.followsCalls)
    (explorer : Explorer search visitor) (primed : Primed search memory)
    (reaches : search.InReach (.expression node)) :
    Explores search memory (traceNode visitor node) (.expression node) := by
  by_cases isVariable : node.form = .variableName
  · unfold traceNode
    rw [isVariable]
    exact traceVariable_explores grounded explorer primed reaches isVariable
  · have noted : Progress search memory (fun _ => False)
        (memory.noted search.program.rules node) := by
      unfold Memory.noted
      split
      · exact .of_eq (primed.toLearned.of_eq rfl rfl rfl rfl) rfl (fun _ _ _ found => found) rfl
          nofun
      · exact .refl primed.toLearned nofun
    refine traceNode_parts grounded entersNone primed.toLearned reaches isVariable ?_
    cases own : leafName? search.program.rules node with
    | some leaf =>
        rw [valueParts_of_leaf own, Concludes.mapM_nil_iff]
        have shows : forall name,
            search.quest.Shows (joinParts search.program.rules node []) name ↔
              search.quest.LiesAt search.program (.expression node) name := fun _ =>
          (Quest.shows_joinParts_of_leaf own).trans (Quest.liesAt_expression_iff isVariable).symm
        refine ⟨noted.after_nothing (.refl noted.learned ?_), .site ?_ ?_⟩
        · exact fun name shown => ⟨_, reaches, (shows name).1 shown⟩
        · exact fun name => (shows name).2
        · intro next step
          cases step with
          | read shown => exact absurd shown.isVariable isVariable
          | part member =>
              rw [valueParts_of_leaf own] at member
              cases member
    | none =>
        refine Concludes.mono (mapM_explores explorer (primed.progress noted) fun part member =>
          reaches.step (.part member)) ?_ fun _ _ faulty => faulty
        rintro results after ⟨progress, covered⟩
        have joined : forall name, search.quest.Shows (joinParts search.program.rules node results)
            name ↔ search.quest.ShownIn results name := fun _ => Quest.shows_joinParts_of_inner own
        refine ⟨noted.after_nothing (progress.mono (fun name => (joined name).2)
          fun name shown => progress.sound name ((joined name).1 shown)), .site ?_ ?_⟩
        · intro name lies
          have named := (Quest.liesAt_expression_iff isVariable).1 lies
          cases (Quest.ownName?_eq_none own).symm.trans named
        · intro next step
          cases step with
          | read shown => exact absurd shown.isVariable isVariable
          | part member =>
              exact (covered _ member).mono (fun _ known => known) fun name => (joined name).2

end Expressions

section Definitions

/-- What a variable held before is searched if the definition keeps it. -/
theorem priorValue_explores (grounded : Grounded search.nodes search.program)
    (explorer : Explorer search visitor) (primed : Primed search memory)
    {definition left : Node} (defines : name ∈ definition.definedNames)
    (kept : keptTarget? definition = some left)
    (reaches : search.InReach (.variable name (.referent definition))) :
    Concludes search.program memory (priorValue visitor.definition name left)
      (fun deps after => Progress search memory (search.quest.Shows deps) after ∧
        forall start, formerVariable? left = some start ->
          (search.program.rules.isInputVariable start.text = true ->
            search.quest.Shows deps start.text) ∧
          forall binding, ReadsBinding search.program start (some binding) ->
            Covered search (Knows after) (search.quest.Shows deps) (.variable start.text binding))
      (fun fault _ => search.Fails fault) := by
  have keeps : forall start, formerVariable? left = some start -> KeepsFormer definition start :=
    fun start chosen => ⟨left, kept, chosen⟩
  have sameName : forall start, formerVariable? left = some start -> name = start.text :=
    fun start chosen => name_eq_of_formerVariable? defines kept chosen
  have nothing : Progress search memory (search.quest.Shows ∅) memory :=
    .refl primed.toLearned fun _ shown => absurd shown Quest.not_shows_empty
  refine Concludes.priorValue_of ?_ ?_ ?_ ?_ ?_ ?_
  · intro none
    refine ⟨nothing, ?_⟩
    intro start chosen
    rw [none] at chosen
    cases chosen
  · intro start chosen isInput
    rw [sameName start chosen] at isInput ⊢
    have shows : forall leaf, search.quest.Shows
        (Dependencies.single start.text (Record.leaf start.text .tainted none)) leaf ↔
          leaf = start.text := fun _ => Quest.shows_single_of_tainted rfl
    refine ⟨.refl primed.toLearned ?_, ?_⟩
    · intro leaf shown
      exact ⟨_, reaches, Quest.liesAt_definition_iff.2
        ⟨start, keeps start chosen, isInput, (shows leaf).1 shown⟩⟩
    · intro other again
      cases Option.some.inj (chosen.symm.trans again)
      refine ⟨fun _ => (shows _).2 rfl, ?_⟩
      intro binding reads
      rw [reads.notInput] at isInput
      cases isInput
  · intro start _ _ isParameter
    rw [primed.parameters] at isParameter
    cases isParameter
  · intro start fault chosen _ missing
    exact Or.inr ⟨_, start, reaches, Or.inl (.former (keeps start chosen)), missing⟩
  · intro start scope chosen notInput located visible
    rw [sameName start chosen] at notInput visible
    refine ⟨nothing, ?_⟩
    intro other again
    cases Option.some.inj (chosen.symm.trans again)
    refine ⟨fun isInput => ?_, ?_⟩
    · rw [notInput] at isInput
      cases isInput
    · intro binding reads
      cases visible.symm.trans (reads.seen located)
  · intro start scope binding chosen notInput _ located visible
    rw [sameName start chosen] at notInput visible ⊢
    have isVariable := Node.isVariable_iff.1 (Option.filter_eq_some_iff.1 chosen).2
    have reads : ReadsBinding search.program start (some binding) :=
      ⟨isVariable, notInput, scope, located, visible⟩
    have onward := reaches.step (.former (keeps start chosen) reads)
    refine Concludes.mono (followRecord_explores grounded explorer primed
      (suitsRecord_of_visible grounded visible _) rfl onward) ?_ fun _ _ faulty => faulty
    rintro deps after ⟨progress, covered⟩
    refine ⟨progress, ?_⟩
    intro other again
    cases Option.some.inj (chosen.symm.trans again)
    refine ⟨fun isInput => ?_, ?_⟩
    · rw [notInput] at isInput
      cases isInput
    · intro found others
      cases visible.symm.trans (others.seen located)
      exact covered

/-- A definition is searched if what it takes its value from is. -/
theorem traceDefinition_explores (grounded : Grounded search.nodes search.program)
    (explorer : Explorer search visitor) (primed : Primed search memory) {definition : Node}
    (defines : name ∈ definition.definedNames)
    (reaches : search.InReach (.variable name (.referent definition))) :
    Concludes search.program memory (traceDefinition visitor name definition)
      (fun deps after => Progress search memory (search.quest.Shows deps) after ∧
        Searched search (Knows after) (search.quest.Shows deps)
          (.variable name (.referent definition)))
      (fun fault _ => search.Fails fault) := by
  refine (Concludes.traceDefinition_iff (isDefinition_of_mem_definedNames defines)).2 ?_
  refine Concludes.mono (mapM_explores explorer primed ?_) ?_ fun _ _ faulty => faulty
  · intro part member
    exact reaches.step (.value (Option.mem_toList.1 member))
  · rintro results after ⟨progress, covered⟩
    have merged : forall leaf, search.quest.Shows (Dependencies.merge results) leaf ↔
        search.quest.ShownIn results leaf := fun _ => Quest.shows_merge
    cases kept : keptTarget? definition with
    | none =>
        simp only
        have dropped : forall start, ¬ KeepsFormer definition start := by
          rintro start ⟨left, found, _⟩
          rw [kept] at found
          cases found
        refine ⟨progress.mono (fun leaf => (merged leaf).2) fun leaf shown =>
          progress.sound leaf ((merged leaf).1 shown), ?_, ?_⟩
        · intro leaf lies
          obtain ⟨start, keeps, _⟩ := Quest.liesAt_definition_iff.1 lies
          exact absurd keeps (dropped start)
        · intro next step
          cases step with
          | value found =>
              exact (covered _ (Option.mem_toList.2 found)).mono (fun _ known => known)
                fun leaf => (merged leaf).2
          | former keeps _ => exact absurd keeps (dropped _)
    | some left =>
        simp only
        refine Concludes.mono (priorValue_explores grounded explorer (primed.progress progress)
          defines kept reaches) ?_ fun _ _ faulty => faulty
        rintro former final ⟨further, formers⟩
        have chosen : forall start, KeepsFormer definition start ->
            formerVariable? left = some start := by
          rintro start ⟨other, found, chosen⟩
          rw [kept] at found
          cases found
          exact chosen
        have together := progress.trans further
        have both : forall leaf, search.quest.Shows
            (Dependencies.mergeTwo former (Dependencies.merge results)) leaf ↔
              search.quest.ShownIn results leaf ∨ search.quest.Shows former leaf := by
          intro leaf
          rw [Dependencies.mergeTwo_eq, Quest.shows_merge]
          simp [Quest.ShownIn, Quest.shows_merge, or_comm]
        refine ⟨together.mono (fun leaf => (both leaf).2) fun leaf shown =>
          together.sound leaf ((both leaf).1 shown), ?_, ?_⟩
        · intro leaf lies
          obtain ⟨start, keeps, isInput, rfl⟩ := Quest.liesAt_definition_iff.1 lies
          exact (both _).2 (Or.inr ((formers _ (chosen _ keeps)).1 isInput))
        · intro next step
          cases step with
          | value found =>
              exact (covered _ (Option.mem_toList.2 found)).mono
                (fun _ known => further.knows known) fun leaf met => (both leaf).2 (Or.inl met)
          | former keeps reads =>
              exact ((formers _ (chosen _ keeps)).2 _ reads).mono (fun _ known => known)
                fun leaf met => (both leaf).2 (Or.inr met)

/-- At every depth, traces search what they can reach or fail. -/
theorem visitor_explores (grounded : Grounded search.nodes search.program)
    (entersNone : EntersNoFunction search.program search.root search.followsCalls) (depth : Nat) :
    Explorer search (Flow.visitor depth) := by
  induction depth with
  | zero => exact ⟨fun _ _ _ _ => Or.inl rfl, fun _ _ _ _ _ _ _ => Or.inl rfl⟩
  | succ depth inductionHypothesis =>
      refine ⟨?_, ?_⟩
      · intro node memory reaches primed
        show Explores search memory (traceWithin (depth + 1) node) (.expression node)
        rw [traceWithin]
        exact traceNode_explores grounded entersNone inductionHypothesis primed reaches
      · intro name definition memory _ defines reaches primed
        show Concludes search.program memory (definitionWithin (depth + 1) name definition) _ _
        rw [definitionWithin]
        exact traceDefinition_explores grounded inductionHypothesis primed defines reaches

end Definitions

end PhpTaint.Flow
