import PhpTaint.Proofs.Flow.Preservation
import PhpTaint.Proofs.Flow.Quest

/-!
# Searching the graph

A trace that enters no function searches the graph of definitions and uses depth
first. It stops at definitions that it knows, because it has followed them or is
following them, and `Covered` says how far it has come.

A search is exact if every variable is followed to the binding that it has where it
is read. A tracer looks up a name once, so either the name has one binding wherever
it is read, or its first binding is a definition that is being followed all the
while: then every other reading looks the name up afresh. Of a variable that is read
in a search that is not exact nothing is said.

A definition that is being followed contributes nothing, and what it contributes
when it has been followed may lack what was being followed at that time. Nothing is
lost at the root all the same: what a trace finds flows into every trace that
started it, so one set of names can serve for all definitions that were followed
meanwhile. `Primed` states what a tracer may know when a trace begins, `Progress`
what changes until it ends.
-/

namespace PhpTaint.Flow

open Scopes Syntax Rules

/-- Wherever one name is read, it has one binding. -/
def OneBinding (program : Program) (root : Node) : Prop :=
  forall left right leftBinding rightBinding, Reaches program root (.expression left) ->
    Reaches program root (.expression right) -> left.text = right.text ->
    ReadsBinding program left leftBinding -> ReadsBinding program right rightBinding ->
      leftBinding = rightBinding

/-- A name has one binding wherever it is read. -/
def HasOneBinding (program : Program) (root : Node) (name : String) : Prop :=
  forall left right leftBinding rightBinding, Reaches program root (.expression left) ->
    Reaches program root (.expression right) -> left.text = name -> right.text = name ->
    ReadsBinding program left leftBinding -> ReadsBinding program right rightBinding ->
      leftBinding = rightBinding

/-- Where calls are followed, no function that is declared is called in reach. -/
def EntersNoFunction (program : Program) (root : Node) (followsCalls : Bool) : Prop :=
  followsCalls = true -> forall call, Reaches program root (.expression call) ->
    calledFunction? program call = none

/-- A name that can be read, with the binding it has there. -/
def BoundInReach (program : Program) (root : Node) (name : String)
    (binding : Option (Binding Node)) : Prop :=
  ∃ read, Reaches program root (.expression read) ∧ read.text = name ∧
    ReadsBinding program read binding

/-- A search of the graph from an expression. -/
structure Search where
  program : Program
  nodes : List Node
  /-- The expression with which the search begins. -/
  root : Node
  quest : Quest
  /-- Every variable is followed to the binding that it has where it is read. -/
  exact : Prop
  followsCalls : Bool

namespace Search

/-- A site that can be reached. -/
abbrev InReach (search : Search) (site : Site) : Prop := Reaches search.program search.root site

/-- A name that is looked for can be reached. -/
def Finds (search : Search) (name : String) : Prop :=
  ∃ site, search.InReach site ∧ search.quest.LiesAt search.program site name

/-- The scope of a node is asked for at a site, also for a call that may be followed. -/
def Asks (search : Search) (site : Site) (node : Node) : Prop :=
  AsksScope search.program site node ∨
    search.followsCalls = true ∧ site = .expression node ∧ node.form = .call

/-- The faults of a search: it goes too deep, or a node in reach was not annotated. -/
def Fails (search : Search) (fault : Fault) : Prop :=
  fault = .tooDeep ∨ ∃ site node, search.InReach site ∧ search.Asks site node ∧
    search.program.registry.scopeOf search.program.globalScope node = .error fault

end Search

/-- A site has been searched as far as the known definitions: what is looked for has
been met on the way. -/
inductive Covered (search : Search) (known : Key -> Prop) (met : String -> Prop) : Site -> Prop where
  /-- The search stops at a known definition. -/
  | definition {name : String} {node : Node} (isKnown : known node.key) :
      Covered search known met (.variable name (.referent node))
  /-- Nothing is said of a variable that is read. -/
  | loose {node : Node} (notExact : ¬ search.exact) (isVariable : node.form = .variableName) :
      Covered search known met (.expression node)
  /-- The search goes on at every other site. -/
  | site {site : Site} (meets : forall name, search.quest.LiesAt search.program site name -> met name)
      (steps : forall next, UseStep search.program site next -> Covered search known met next) :
      Covered search known met site

/-- A site with all that is searched from it. -/
structure Searched (search : Search) (known : Key -> Prop) (met : String -> Prop) (site : Site) :
    Prop where
  meets : forall name, search.quest.LiesAt search.program site name -> met name
  steps : forall next, UseStep search.program site next -> Covered search known met next

/-- The first binding of a name is a definition that is being followed. -/
def Afresh (memory : Memory) (name : String) : Prop :=
  ∃ record, memory.tracer.records.find? name = some record ∧
    isActive memory.tracer record.definition = true

/-- The record of a name in reach. Only an input is tainted by itself. -/
structure FromReach (search : Search) (name : String) (record : LeafRecord) : Prop where
  named : record.name = name
  untainted : search.program.rules.isInputVariable name = false -> record.level ≠ .tainted
  bound : search.program.rules.isInputVariable name = false ->
    BoundInReach search.program search.root name record.definition

/-- What a search has learned comes from what can be reached. -/
structure Learned (search : Search) (memory : Memory) : Prop where
  parameters : memory.tracer.parameters = []
  followsCalls : memory.tracer.followsCalls = search.followsCalls
  records : forall name record, memory.tracer.records.find? name = some record ->
    FromReach search name record
  traced : forall key deps, memory.tracer.traced.find? key = some deps -> forall name,
    search.quest.Shows deps name -> search.Finds name

/-- What a tracer knows when a trace begins. In an exact search every name is
followed to the binding it has where it is read. -/
structure Primed (search : Search) (memory : Memory) : Prop extends Learned search memory where
  settled : search.exact -> forall name, search.program.rules.isInputVariable name = false ->
    HasOneBinding search.program search.root name ∨ Afresh memory name

/-- The definitions that have been followed or are being followed. -/
def Knows (memory : Memory) (key : Key) : Prop :=
  (memory.tracer.traced.find? key).isSome = true ∨ key ∈ memory.tracer.active

/-- What happens between the beginning and the end of a trace that meets some
names: every definition that was followed meanwhile has been searched. -/
structure Progress (search : Search) (before : Memory) (met : String -> Prop) (after : Memory) :
    Prop where
  learned : Learned search after
  active : after.tracer.active = before.tracer.active
  records : forall name record, search.program.rules.isInputVariable name = false ->
    before.tracer.records.find? name = some record ->
      after.tracer.records.find? name = some record
  keeps : forall key, (before.tracer.traced.find? key).isSome = true ->
    (after.tracer.traced.find? key).isSome = true
  finished : forall key, (after.tracer.traced.find? key).isSome = true ->
    (before.tracer.traced.find? key).isSome = true ∨
      ∃ definition, definition ∈ search.nodes ∧ definition.key = key ∧
        forall name, Searched search (Knows after) met (.variable name (.referent definition))
  sound : forall name, met name -> search.Finds name

variable {search : Search} {known more : Key -> Prop} {met all : String -> Prop} {site : Site}
  {name : String} {memory : Memory}

/-- Where every variable has one binding, the one in question has one. -/
theorem OneBinding.hasOneBinding {program : Program} {root : Node} (one : OneBinding program root)
    (name : String) : HasOneBinding program root name := by
  intro left right leftBinding rightBinding leftReach rightReach leftNamed rightNamed
  exact one left right leftBinding rightBinding leftReach rightReach (leftNamed.trans rightNamed.symm)

/-- A definition in reach is a node of the files. -/
theorem mem_nodes_of_reaches {program : Program} {nodes : List Node} {root : Node}
    (grounded : Grounded nodes program) {definition : Node}
    (reaches : Reaches program root (.variable name (.referent definition))) :
    definition ∈ nodes := by
  have suits : forall site, Reaches program root site ->
      match site with
      | .expression _ => True
      | .variable name binding => binding.Suits nodes name := by
    intro site path
    induction path with
    | refl => trivial
    | tail _ step inductionHypothesis =>
        cases step with
        | part _ | value _ => trivial
        | read reads | former _ reads =>
            obtain ⟨_, _, visible⟩ := reads.visible
            exact grounded.sound.suits_of_visible visible
        | reference followed _ =>
            obtain rfl : _ = _ := inductionHypothesis
            exact grounded.sound.suits_of_followReference followed
  exact (suits _ reaches).1

section Coverage

/-- What is covered stays covered while more is known and met. -/
theorem Covered.mono (covered : Covered search known met site)
    (knows : forall key, known key -> more key) (meets : forall name, met name -> all name) :
    Covered search more all site := by
  induction covered with
  | definition isKnown => exact .definition (knows _ isKnown)
  | loose notExact isVariable => exact .loose notExact isVariable
  | site lies _ inductionHypothesis =>
      exact .site (fun name here => meets name (lies name here)) inductionHypothesis

/-- What is searched stays searched while more is known and met. -/
theorem Searched.mono (searched : Searched search known met site)
    (knows : forall key, known key -> more key) (meets : forall name, met name -> all name) :
    Searched search more all site :=
  ⟨fun name lies => meets name (searched.meets name lies),
    fun next step => (searched.steps next step).mono knows meets⟩

/-- What is searched from a definition does not depend on the variable. -/
theorem Searched.rename {definition : Node} {other : String}
    (searched : Searched search known met (.variable name (.referent definition))) :
    Searched search known met (.variable other (.referent definition)) := by
  refine ⟨fun leaf lies => ?_, fun next step => ?_⟩
  · exact searched.meets leaf (Quest.liesAt_definition_iff.2 (Quest.liesAt_definition_iff.1 lies))
  · cases step with
    | value found => exact searched.steps _ (.value found)
    | former keeps reads => exact searched.steps _ (.former keeps reads)

/-- An exact search has searched the expressions that it has covered. -/
theorem Covered.searched_expression {node : Node} (isExact : search.exact)
    (covered : Covered search known met (.expression node)) :
    Searched search known met (.expression node) := by
  cases covered with
  | loose notExact _ => exact absurd isExact notExact
  | site meets steps => exact ⟨meets, steps⟩

/-- If an exact search has searched every known definition, then it has met all that
lies behind a site that it has searched. -/
theorem Searched.met_of_path {first : Site} (isExact : search.exact)
    (finished : forall name node, Relation.ReflTransGen (UseStep search.program) first
      (.variable name (.referent node)) -> known node.key ->
        Searched search known met (.variable name (.referent node)))
    (searched : Searched search known met first)
    (path : Relation.ReflTransGen (UseStep search.program) first site)
    (lies : search.quest.LiesAt search.program site name) : met name := by
  have last : Searched search known met site := by
    clear lies
    induction path with
    | refl => exact searched
    | tail earlier step inductionHypothesis =>
        cases inductionHypothesis.steps _ step with
        | definition isKnown => exact finished _ _ (earlier.tail step) isKnown
        | loose notExact _ => exact absurd isExact notExact
        | site meets steps => exact ⟨meets, steps⟩
  exact last.meets name lies

variable {binding : Binding Node}

/-- A variable has been searched if it has with the binding that is followed. -/
theorem Covered.of_followedBinding
    (covered : Covered search known met
      (.variable name (followedBinding search.program.registry binding))) :
    Covered search known met (.variable name binding) := by
  by_cases settled : followedBinding search.program.registry binding = binding
  · rw [settled] at covered
    exact covered
  · refine .site (fun leaf lies => absurd lies (Quest.not_liesAt_of_followedBinding settled)) ?_
    intro next step
    cases step with
    | reference followed final =>
        rw [followedBinding_of_followReference followed final] at covered
        exact covered
    | value | former => exact absurd rfl settled

/-- A variable whose binding is followed to no definition shows all that lies there. -/
theorem covered_of_bindingOrigin {deps : Deps}
    (settled : followedBinding search.program.registry binding = binding)
    (origin : bindingOrigin [] name binding = .leaf deps) :
    Covered search known (search.quest.Shows deps) (.variable name binding) :=
  .site (fun _ => (Quest.shows_of_bindingOrigin settled origin).2)
    fun _ step => absurd step (not_useStep_of_bindingOrigin settled origin)

end Coverage

section Memories

/-- A first binding that is being followed is still so while records and marks are kept. -/
theorem Afresh.mono {after : Memory} (afresh : Afresh memory name)
    (records : forall record, memory.tracer.records.find? name = some record ->
      after.tracer.records.find? name = some record)
    (active : forall key, key ∈ memory.tracer.active -> key ∈ after.tracer.active) :
    Afresh after name := by
  obtain ⟨record, found, following⟩ := afresh
  refine ⟨record, records record found, ?_⟩
  unfold isActive at following ⊢
  split at following
  · exact List.contains_iff_mem.2 (active _ (List.contains_iff_mem.1 following))
  · cases following

namespace Learned

/-- Notes, gaps and names without a binding are not part of what is learned. -/
theorem of_eq {after : Memory} (learned : Learned search memory)
    (parameters : after.tracer.parameters = memory.tracer.parameters)
    (followsCalls : after.tracer.followsCalls = memory.tracer.followsCalls)
    (records : after.tracer.records = memory.tracer.records)
    (traced : after.tracer.traced = memory.tracer.traced) : Learned search after := by
  refine ⟨parameters.trans learned.parameters, followsCalls.trans learned.followsCalls, ?_, ?_⟩
  · rw [records]
    exact learned.records
  · rw [traced]
    exact learned.traced

/-- A tracer that has read nothing has learned nothing. -/
theorem fresh (search : Search) (memory : Memory) :
    Learned search (memory.withTracer (Tracer.fresh [] search.followsCalls)) := by
  refine ⟨rfl, rfl, ?_, ?_⟩
  · intro name record listed
    cases listed
  · intro key deps listed
    cases listed

/-- A new record is kept beside the records of other names. -/
theorem keepRecord (learned : Learned search memory) {record : LeafRecord}
    (fromReach : FromReach search name record) :
    Learned search (memory.keepRecord name record) := by
  refine ⟨learned.parameters, learned.followsCalls, ?_, learned.traced⟩
  intro other found listed
  have inserted : (memory.tracer.records.insert name record).find? other = some found := listed
  rw [Table.find?_insert] at inserted
  split at inserted
  · rename_i same
    subst same
    cases inserted
    exact fromReach
  · exact learned.records other found inserted

end Learned

namespace Progress

/-- What was known before a step is known after it. -/
theorem knows {before after : Memory} (progress : Progress search before met after) {key : Key}
    (known : Knows before key) : Knows after key := by
  rcases known with followed | following
  · exact Or.inl (progress.keeps key followed)
  · exact Or.inr (progress.active.symm ▸ following)

/-- A step that follows no definition. -/
theorem of_eq {after : Memory} (learned : Learned search after)
    (active : after.tracer.active = memory.tracer.active)
    (records : forall name record, search.program.rules.isInputVariable name = false ->
      memory.tracer.records.find? name = some record ->
        after.tracer.records.find? name = some record)
    (traced : after.tracer.traced = memory.tracer.traced)
    (sound : forall name, met name -> search.Finds name) : Progress search memory met after := by
  refine ⟨learned, active, records, ?_, ?_, sound⟩
  · rw [traced]
    exact fun _ followed => followed
  · rw [traced]
    exact fun _ followed => Or.inl followed

/-- A step that changes nothing is progress, if the search finds what was met. -/
theorem refl (learned : Learned search memory) (sound : forall name, met name -> search.Finds name) :
    Progress search memory met memory :=
  of_eq learned rfl (fun _ _ _ found => found) rfl sound

/-- What is met may grow as long as the search finds it. -/
theorem mono {before after : Memory} (progress : Progress search before met after)
    (meets : forall name, met name -> all name) (sound : forall name, all name -> search.Finds name) :
    Progress search before all after := by
  refine ⟨progress.learned, progress.active, progress.records, progress.keeps, ?_, sound⟩
  intro key followed
  rcases progress.finished key followed with earlier | ⟨definition, member, same, searched⟩
  · exact Or.inl earlier
  · exact Or.inr ⟨definition, member, same, fun name =>
      (searched name).mono (fun _ known => known) meets⟩

/-- One trace after the other. -/
theorem trans {before middle after : Memory} {first second : String -> Prop}
    (earlier : Progress search before first middle) (later : Progress search middle second after) :
    Progress search before (fun name => first name ∨ second name) after := by
  refine ⟨later.learned, later.active.trans earlier.active,
    fun name record notInput found =>
      later.records name record notInput (earlier.records name record notInput found),
    fun key followed => later.keeps key (earlier.keeps key followed), ?_, ?_⟩
  · intro key followed
    rcases later.finished key followed with meanwhile | ⟨definition, member, same, searched⟩
    · rcases earlier.finished key meanwhile with old | ⟨definition, member, same, searched⟩
      · exact Or.inl old
      · exact Or.inr ⟨definition, member, same, fun name =>
          (searched name).mono (fun _ known => later.knows known) fun _ found => Or.inl found⟩
    · exact Or.inr ⟨definition, member, same, fun name =>
        (searched name).mono (fun _ known => known) fun _ found => Or.inr found⟩
  · rintro name (found | found)
    · exact earlier.sound name found
    · exact later.sound name found

/-- A trace after a step that met nothing. -/
theorem after_nothing {before middle after : Memory}
    (earlier : Progress search before (fun _ => False) middle)
    (later : Progress search middle met after) : Progress search before met after :=
  (earlier.trans later).mono (fun _ found => found.resolve_left id) later.sound

/-- If nothing had been followed when a trace began, then a definition that is known
when it ends was being followed or has been searched. -/
theorem searched_of_knows {before after : Memory} (progress : Progress search before met after)
    (nothing : forall key, before.tracer.traced.find? key = none)
    (apart : forall left right, left ∈ search.nodes -> right ∈ search.nodes ->
      left.key = right.key -> left = right)
    {definition : Node} (listed : definition ∈ search.nodes) (known : Knows after definition.key) :
    definition.key ∈ before.tracer.active ∨ forall name,
      Searched search (Knows after) met (.variable name (.referent definition)) := by
  rcases known with followed | following
  · rcases progress.finished _ followed with earlier | ⟨same, sameListed, sameKey, searched⟩
    · rw [nothing] at earlier
      cases earlier
    · cases apart _ _ sameListed listed sameKey
      exact Or.inr searched
  · exact Or.inl (progress.active ▸ following)

end Progress

namespace Primed

/-- What was settled stays settled. -/
theorem progress {after : Memory} (primed : Primed search memory)
    (progress : Progress search memory met after) : Primed search after := by
  refine ⟨progress.learned, ?_⟩
  intro isExact name notInput
  refine (primed.settled isExact name notInput).imp_right fun afresh => ?_
  exact afresh.mono (fun record => progress.records name record notInput)
    fun key following => progress.active.symm ▸ following

/-- A mark on a definition keeps the memory primed. -/
theorem activate (primed : Primed search memory) (key : Key) :
    Primed search (memory.activate key) := by
  refine ⟨primed.toLearned.of_eq rfl rfl rfl rfl, ?_⟩
  intro isExact name notInput
  refine (primed.settled isExact name notInput).imp_right fun afresh => ?_
  exact afresh.mono (fun _ found => found) fun other => List.mem_cons_of_mem key

end Primed

end Memories

end PhpTaint.Flow
