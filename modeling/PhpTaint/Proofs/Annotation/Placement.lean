import PhpTaint.Proofs.Annotation.Lexical
import PhpTaint.Proofs.Annotation.Orderly
import PhpTaint.Proofs.Scopes.Cataloguing
import PhpTaint.Proofs.Scopes.Records

/-!
# Annotation beside the text

A run of annotation is `Placed` beside the reading of the text when the catalogue of
its scopes says what the text says: the current scope has the path of the text, the
functions that the catalogue lists are those that were declared last, and every
record of a node has a scope at the path of that node. `Lands` is what a step that
succeeds leads to, together with the catalogue afterwards. The lemmas here are about
the steps that the visiting rules are made of.
-/

namespace PhpTaint.Annotation

open Scopes Syntax Outcome Lexical

/-- What a step leads to when it succeeds, with the catalogue of what it leaves. -/
def Lands {α : Type} (catalogue : Catalogue Node) (outcome : EStateM.Result Fault Annotator α)
    (done : α -> Catalogue Node -> Annotator -> Prop) : Prop :=
  forall value after, outcome = .ok value after ->
    ∃ later, Catalogue.KeepsPlaces catalogue later ∧ done value later after

namespace Lands

variable {α β τ : Type} {catalogue : Catalogue Node} {state : Annotator}
  {done : α -> Catalogue Node -> Annotator -> Prop}

/-- Less may be said of where an outcome lands. -/
theorem mono {outcome : EStateM.Result Fault Annotator α}
    {weaker : α -> Catalogue Node -> Annotator -> Prop} (lands : Lands catalogue outcome done)
    (implied : forall value later after, Catalogue.KeepsPlaces catalogue later ->
      done value later after -> weaker value later after) :
    Lands catalogue outcome weaker := by
  intro value after ended
  obtain ⟨later, kept, holds⟩ := lands value after ended
  exact ⟨later, kept, implied value later after kept holds⟩

theorem pure {value : α} (holds : done value catalogue state) :
    Lands catalogue ((Pure.pure value : Annotating α) state) done := by
  intro result after ended
  obtain ⟨rfl, rfl⟩ := pure_eq_ok.1 ended
  exact ⟨catalogue, .refl catalogue, holds⟩

/-- A last step of which the outcome is known. -/
theorem of_ok {outcome : EStateM.Result Fault Annotator α} {value : α} {after : Annotator}
    (known : outcome = .ok value after) (holds : done value catalogue after) :
    Lands catalogue outcome done := by
  rintro _ _ ended
  rw [known] at ended
  cases ended
  exact ⟨catalogue, .refl catalogue, holds⟩

/-- Two steps land one after the other, and no place moves in between. -/
theorem bind {step : Annotating α} {next : α -> Annotating β}
    {last : β -> Catalogue Node -> Annotator -> Prop} (first : Lands catalogue (step state) done)
    (rest : forall value later middle, Catalogue.KeepsPlaces catalogue later ->
      done value later middle -> Lands later (next value middle) last) :
    Lands catalogue ((step >>= next) state) last := by
  intro result after ended
  obtain ⟨value, middle, started, finished⟩ := bind_eq_ok.1 ended
  obtain ⟨later, kept, holds⟩ := first value middle started
  obtain ⟨final, keptToo, finally'⟩ := rest value later middle kept holds result after finished
  exact ⟨final, kept.trans keptToo, finally'⟩

/-- A step of which the outcome is known. -/
theorem bind_ok {step : Annotating α} {next : α -> Annotating β} {value : α} {middle : Annotator}
    {last : β -> Catalogue Node -> Annotator -> Prop} (first : step state = .ok value middle)
    (rest : Lands catalogue (next value middle) last) :
    Lands catalogue ((step >>= next) state) last := by
  intro result after ended
  obtain ⟨_, _, started, finished⟩ := bind_eq_ok.1 ended
  rw [first] at started
  cases started
  exact rest result after finished

/-- A pass over a list beside a fold over it. -/
theorem foldlM {step : α -> β -> Annotating α} {items : List β} (next : τ -> β -> τ)
    (beside : α -> Catalogue Node -> Annotator -> τ -> Prop)
    (kept : forall item, item ∈ items -> forall value catalogue state other,
      beside value catalogue state other ->
        Lands catalogue (step value item state) fun result later after =>
          beside result later after (next other item))
    {value : α} {other : τ} (started : beside value catalogue state other) :
    Lands catalogue (items.foldlM step value state) fun result later after =>
      beside result later after (items.foldl next other) := by
  induction items generalizing catalogue state value other with
  | nil => exact pure started
  | cons item rest inductionHypothesis =>
      rw [List.foldlM_cons]
      refine (kept item (List.mem_cons_self ..) value catalogue state other started).bind ?_
      intro result later middle _ holds
      exact inductionHypothesis
        (fun other member => kept other (List.mem_cons_of_mem _ member)) holds

/-- A list of steps lands where folding the other side over the list leads. -/
theorem forM {step : β -> Annotating Unit} {items : List β} (next : τ -> β -> τ)
    (beside : Catalogue Node -> Annotator -> τ -> Prop)
    (kept : forall item, item ∈ items -> forall catalogue state other,
      beside catalogue state other ->
        Lands catalogue (step item state) fun _ later after => beside later after (next other item))
    {other : τ} (started : beside catalogue state other) :
    Lands catalogue (items.forM step state) fun _ later after =>
      beside later after (items.foldl next other) := by
  induction items generalizing catalogue state other with
  | nil => exact pure started
  | cons item rest inductionHypothesis =>
      refine (kept item (List.mem_cons_self ..) catalogue state other started).bind ?_
      intro result later middle _ holds
      exact inductionHypothesis
        (fun other member => kept other (List.mem_cons_of_mem _ member)) holds

/-- A pass of which no step changes what holds. -/
theorem each {step : β -> Annotating Unit} {items : List β}
    (holds : Catalogue Node -> Annotator -> Prop)
    (kept : forall item, item ∈ items -> forall catalogue state, holds catalogue state ->
      Lands catalogue (step item state) fun _ later after => holds later after)
    (started : holds catalogue state) :
    Lands catalogue (items.forM step state) fun _ later after => holds later after := by
  induction items generalizing catalogue state with
  | nil => exact pure started
  | cons item rest inductionHypothesis =>
      apply (kept item (List.mem_cons_self ..) catalogue state started).bind
      intro _ later middle _ held
      exact inductionHypothesis (fun other member => kept other (List.mem_cons_of_mem _ member))
        held

end Lands

/-- A scope stands at a path, as a class body or not. -/
def StandsAt (catalogue : Catalogue Node) (id : ScopeId) (path : Path) (isClass : Bool) : Prop :=
  ∃ place, catalogue.place? id = some place ∧ place.path = path ∧ place.isClass = isClass

/-- A scope stands where it stood as long as places are kept. -/
theorem StandsAt.later {catalogue later : Catalogue Node} {id : ScopeId} {path : Path}
    {isClass : Bool} (stands : StandsAt catalogue id path isClass)
    (kept : Catalogue.KeepsPlaces catalogue later) : StandsAt later id path isClass := by
  obtain ⟨place, found, samePath, sameClass⟩ := stands
  exact ⟨place, kept id place found, samePath, sameClass⟩

/-- A run stands in a scope at a path, above other scopes, and what it has recorded
is what the text says. -/
structure Placed (roots : List Node) (owner : ScopeId) (outer : List ScopeId) (path : Path)
    (catalogue : Catalogue Node) (state : Annotator) (reading : State) : Prop where
  owned : state.globalScope = owner
  catalogued : Catalogued owner state.registry catalogue
  functions : forall around key,
    catalogue.entries.find? (.function, around, key) = reading.last? (around ++ [key])
  records : forall record, record ∈ state.registry.annotationsOf owner ->
    ∃ around isClass, StandsAt catalogue record.2 around isClass ∧ Stamped roots around record.1
  top : ∃ here, state.stack = here :: outer ∧ StandsAt catalogue here path reading.inClass

variable {roots : List Node} {owner : ScopeId} {outer : List ScopeId} {path around : Path}
  {catalogue : Catalogue Node} {state : Annotator} {reading : State} {isClass : Bool}

namespace Placed

/-- An operation on the registry, with what it does to the catalogue and to the
functions of the text. -/
theorem registers {α : Type} {operation : Registering Node α}
    {done : α -> Catalogue Node -> Prop} {further : State}
    (placed : Placed roots owner outer path catalogue state reading)
    (unrecorded : Unrecorded operation) (sameClass : further.inClass = reading.inClass)
    (ends : forall value registry, operation state.registry = .ok value registry ->
      ∃ later, Catalogue.KeepsPlaces catalogue later ∧ Catalogued owner registry later ∧
        (forall around key, later.entries.find? (.function, around, key) =
          further.last? (around ++ [key])) ∧ done value later) :
    Lands catalogue (onRegistry operation state) fun value later after =>
      Placed roots owner outer path later after further ∧ done value later := by
  intro value after ended
  obtain ⟨registry, answered, rfl⟩ := onRegistry_eq_ok.1 ended
  obtain ⟨later, kept, catalogued, functions, holds⟩ := ends value registry answered
  refine ⟨later, kept, ⟨placed.owned, catalogued, functions, ?_, ?_⟩, holds⟩
  · intro record member
    have same : registry.annotationsOf owner = state.registry.annotationsOf owner := by
      rw [Registry.annotationsOf, Registry.annotationsOf, Registry.historyOf, Registry.historyOf,
        unrecorded _ _ _ answered]
    obtain ⟨within, flag, stands, stamped⟩ := placed.records record (same ▸ member)
    exact ⟨within, flag, stands.later kept, stamped⟩
  · obtain ⟨here, stack, stands⟩ := placed.top
    exact ⟨here, stack, sameClass ▸ stands.later kept⟩

/-- An operation that declares no function. -/
theorem silently {α : Type} {operation : Registering Node α} {done : α -> Catalogue Node -> Prop}
    (placed : Placed roots owner outer path catalogue state reading)
    (unrecorded : Unrecorded operation)
    (ends : forall value registry, operation state.registry = .ok value registry ->
      ∃ later, Catalogue.KeepsPlaces catalogue later ∧ Catalogued owner registry later ∧
        (forall around key, later.entries.find? (.function, around, key) =
          catalogue.entries.find? (.function, around, key)) ∧ done value later) :
    Lands catalogue (onRegistry operation state) fun value later after =>
      Placed roots owner outer path later after reading ∧ done value later := by
  apply placed.registers unrecorded rfl
  intro value registry answered
  obtain ⟨later, kept, catalogued, functions, holds⟩ := ends value registry answered
  refine ⟨later, kept, catalogued, fun around key => ?_, holds⟩
  rw [functions, placed.functions]

/-- An operation that declares no function and answers with nothing. -/
theorem quietly {operation : Registering Node Unit}
    (placed : Placed roots owner outer path catalogue state reading)
    (unrecorded : Unrecorded operation)
    (ends : forall registry, operation state.registry = .ok ⟨⟩ registry ->
      ∃ later, Catalogue.KeepsPlaces catalogue later ∧ Catalogued owner registry later ∧
        forall around key, later.entries.find? (.function, around, key) =
          catalogue.entries.find? (.function, around, key)) :
    Lands catalogue (onRegistry operation state) fun _ later after =>
      Placed roots owner outer path later after reading := by
  have lands : Lands catalogue (onRegistry operation state) fun _ later after =>
      Placed roots owner outer path later after reading ∧ True := by
    apply placed.silently unrecorded
    intro _ registry answered
    obtain ⟨later, kept, catalogued, functions⟩ := ends registry answered
    exact ⟨later, kept, catalogued, functions, trivial⟩
  exact lands.mono fun _ _ _ _ holds => holds.1

/-- A step that changes neither the scopes nor what is recorded. -/
theorem of_eq (placed : Placed roots owner outer path catalogue state reading) {after : Annotator}
    (owned : after.globalScope = state.globalScope)
    (scopes : after.registry.scopes = state.registry.scopes)
    (histories : after.registry.annotationsOf owner = state.registry.annotationsOf owner)
    (stack : after.stack = state.stack) :
    Placed roots owner outer path catalogue after reading where
  owned := owned.trans placed.owned
  catalogued := placed.catalogued.of_scopes_eq scopes
  functions := placed.functions
  records := histories ▸ placed.records
  top := stack ▸ placed.top

/-- A remark moves nothing. -/
theorem remarks (placed : Placed roots owner outer path catalogue state reading) (text : String) :
    Lands catalogue (remark text state) fun _ later after =>
      Placed roots owner outer path later after reading := by
  intro value after ended
  obtain rfl := modify_eq_ok.1 ended
  exact ⟨catalogue, .refl catalogue, placed.of_eq rfl rfl rfl rfl⟩

/-- Stamping a node with a scope at its path. -/
theorem stamps (placed : Placed roots owner outer path catalogue state reading) {node : Node}
    {scope : ScopeId} (stands : StandsAt catalogue scope around isClass)
    (stamped : Stamped roots around node) :
    Lands catalogue (stamp node scope state) fun _ later after =>
      Placed roots owner outer path later after reading := by
  intro value after ended
  obtain ⟨_, _, got, rest⟩ := bind_eq_ok.1 ended
  obtain ⟨rfl, rfl⟩ := get_eq_ok.1 got
  obtain ⟨registry, annotated, rfl⟩ := onRegistry_eq_ok.1 rest
  rw [placed.owned] at annotated
  obtain ⟨_, _, asked, written⟩ := bind_eq_ok.1 annotated
  obtain ⟨-, rfl⟩ := ask_eq_ok.1 asked
  obtain rfl := modify_eq_ok.1 written
  refine ⟨catalogue, .refl catalogue, placed.owned, placed.catalogued.of_scopes_eq rfl,
    placed.functions, ?_, placed.top⟩
  intro record member
  have listed : record = (node, scope) ∨ record ∈ state.registry.annotationsOf owner := by
    simpa [Registry.annotationsOf, Registry.updateHistory, Registry.historyOf] using member
  rcases listed with rfl | old
  · exact ⟨around, isClass, stands, stamped⟩
  · exact placed.records record old

/-- Recording the end of a program moves nothing. -/
theorem endsProgram (placed : Placed roots owner outer path catalogue state reading)
    (scope : ScopeId) :
    Lands catalogue (endProgram scope state) fun _ later after =>
      Placed roots owner outer path later after reading := by
  intro value after ended
  obtain ⟨_, _, got, rest⟩ := bind_eq_ok.1 ended
  obtain ⟨rfl, rfl⟩ := get_eq_ok.1 got
  obtain ⟨registry, recorded, rfl⟩ := onRegistry_eq_ok.1 rest
  rw [placed.owned] at recorded
  obtain ⟨_, _, asked, written⟩ := bind_eq_ok.1 recorded
  obtain ⟨-, rfl⟩ := ask_eq_ok.1 asked
  obtain rfl := modify_eq_ok.1 written
  refine ⟨catalogue, .refl catalogue, placed.of_eq rfl rfl ?_ rfl⟩
  simp [Registry.annotationsOf, Registry.updateHistory, Registry.historyOf]

/-- Another scope at the path takes the place of the current one. -/
theorem replace (placed : Placed roots owner outer path catalogue state reading) {scope : ScopeId}
    (stands : StandsAt catalogue scope path isClass) :
    Lands catalogue (replaceScope scope state) fun _ later after =>
      Placed roots owner outer path later after (reading.within isClass) ∧
        StandsAt later scope path isClass := by
  intro value after ended
  obtain ⟨_, _, got, rest⟩ := bind_eq_ok.1 ended
  obtain ⟨rfl, rfl⟩ := get_eq_ok.1 got
  obtain ⟨here, stack, -⟩ := placed.top
  rw [stack] at rest
  obtain rfl := modify_eq_ok.1 rest
  exact ⟨catalogue, .refl catalogue, ⟨placed.owned, placed.catalogued, placed.functions,
    placed.records, scope, rfl, stands⟩, stands⟩

/-- Entering a scope. -/
theorem enter (placed : Placed roots owner outer path catalogue state reading) {scope : ScopeId}
    (stands : StandsAt catalogue scope around isClass) :
    Placed roots owner state.stack around catalogue
      { state with stack := scope :: state.stack } (reading.within isClass) :=
  ⟨placed.owned, placed.catalogued, placed.functions, placed.records, scope, rfl, stands⟩

/-- Leaving a scope for the one below. -/
theorem leave {below : ScopeId}
    (placed : Placed roots owner (below :: outer) around catalogue state reading)
    (stands : StandsAt catalogue below path isClass) :
    ∃ here, popScope state = .ok here { state with stack := below :: outer } ∧
      Placed roots owner outer path catalogue { state with stack := below :: outer }
        (reading.within isClass) := by
  obtain ⟨here, stack, -⟩ := placed.top
  exact ⟨here, popScope_eq stack, placed.owned, placed.catalogued, placed.functions,
    placed.records, below, rfl, stands⟩

/-- The entry of a function is opened in a scope. -/
theorem openFunction (placed : Placed roots owner outer path catalogue state reading)
    {scope : ScopeId} (stands : StandsAt catalogue scope around isClass) (name : String) :
    Lands catalogue (onRegistry (Scopes.openFunction name (some scope)) state)
      fun entry later after => Placed roots owner outer path later after reading ∧
        StandsAt later entry around false := by
  apply placed.silently (Unrecorded.openFunction name (some scope))
  intro entry registry answered
  obtain ⟨place, found, rfl, -⟩ := stands
  obtain ⟨after, opened, later⟩ := placed.catalogued.openFunction found name
  rw [opened] at answered
  cases answered
  exact ⟨_, Catalogue.keepsPlaces_add _ _, later, fun _ _ => rfl, _,
    Catalogue.place?_addInside catalogue place false, rfl, rfl⟩

/-- A function is declared in the current scope. -/
theorem declareFunction (placed : Placed roots owner outer path catalogue state reading)
    {here : ScopeId} (stands : StandsAt catalogue here path reading.inClass) (name : String)
    (node : Node) :
    Lands catalogue (onRegistry (Scopes.declareFunction here name node) state)
      fun entry later after =>
        Placed roots owner outer path later after (reading.declare path name node) ∧
          StandsAt later entry path false := by
  apply placed.registers (Unrecorded.declareFunction here name node) (reading.inClass_declare ..)
  intro entry registry answered
  obtain ⟨place, found, rfl, sameClass⟩ := stands
  obtain ⟨_, after, declared, rfl, later⟩ := placed.catalogued.declareFunction found name node
  rw [declared] at answered
  cases answered
  refine ⟨_, Catalogue.keepsPlaces_declareFunction _ _ _ _, later, ?_, _,
    Catalogue.place?_declareFunction _ _ _ _, rfl, rfl⟩
  intro around key
  have paths : place.path ++ [Text.lower name] = around ++ [key] ↔
      place.path = around ∧ Text.lower name = key := by
    constructor
    · intro same
      obtain ⟨outer, inner⟩ := List.append_inj' same rfl
      exact ⟨outer, (List.cons.inj inner).1⟩
    · rintro ⟨rfl, rfl⟩
      rfl
  rw [Catalogue.find?_declareFunction, State.last?_declare, sameClass, placed.functions]
  simp only [paths]

/-- A class is declared in the current scope. -/
theorem declareClass (placed : Placed roots owner outer path catalogue state reading)
    {here : ScopeId} (stands : StandsAt catalogue here path isClass) (name : String)
    (node : Node) :
    Lands catalogue (onRegistry (Scopes.declareClass here name node) state)
      fun inner later after => Placed roots owner outer path later after reading ∧
        StandsAt later inner path true := by
  apply placed.silently (Unrecorded.declareClass here name node)
  intro inner registry answered
  obtain ⟨place, found, rfl, -⟩ := stands
  obtain ⟨_, after, declared, rfl, later⟩ := placed.catalogued.declareClass found name node
  rw [declared] at answered
  cases answered
  refine ⟨catalogue.declareClass place name node, Catalogue.keepsPlaces_add _ _, later, ?_, _,
    Catalogue.place?_addInside _ place true, rfl, rfl⟩
  intro around key
  show (catalogue.entries.insert (.classLike, place.path, Text.lower name) node).find? _ = _
  rw [Table.find?_insert, if_neg (by simp)]

/-- A constant is declared in a scope. -/
theorem declareConstant (placed : Placed roots owner outer path catalogue state reading)
    {scope : ScopeId} (stands : StandsAt catalogue scope around isClass) (name : String)
    (node : Node) :
    Lands catalogue (onRegistry (Scopes.declareConstant scope name node) state)
      fun _ later after => Placed roots owner outer path later after reading := by
  apply placed.quietly (Unrecorded.declareConstant scope name node)
  intro registry answered
  obtain ⟨place, found, -, -⟩ := stands
  obtain ⟨after, declared, later⟩ := placed.catalogued.declareConstant found name node
  rw [declared] at answered
  cases answered
  refine ⟨_, ?_, later, ?_⟩
  · unfold Catalogue.declareConstant
    split <;> exact .refl catalogue
  · intro within key
    unfold Catalogue.declareConstant
    split
    · rfl
    · show (catalogue.entries.insert (.constant, place.path, name) node).find? _ = _
      rw [Table.find?_insert, if_neg (by simp)]

/-- A property is declared in a class. -/
theorem declareProperty (placed : Placed roots owner outer path catalogue state reading)
    (scope : ScopeId) (name : String) (node : Node) :
    Lands catalogue (onRegistry (Scopes.declareProperty scope name node) state)
      fun _ later after => Placed roots owner outer path later after reading := by
  apply placed.quietly (Unrecorded.declareProperty scope name node)
  intro registry answered
  have ends := placed.catalogued.declareProperty scope name node
  rw [answered] at ends
  exact ⟨catalogue, .refl catalogue, ends, fun _ _ => rfl⟩

/-- Binding a variable on entry to a function. -/
theorem bindOnEntry (placed : Placed roots owner outer path catalogue state reading)
    (entry : ScopeId) (name : String) (binding : Binding Node) :
    Lands catalogue (onRegistry (Scopes.bindOnEntry entry name binding) state)
      fun _ later after => Placed roots owner outer path later after reading := by
  apply placed.quietly (Unrecorded.bindOnEntry entry name binding)
  intro registry answered
  have ends := placed.catalogued.bindOnEntry entry name binding
  rw [answered] at ends
  exact ⟨catalogue, .refl catalogue, ends, fun _ _ => rfl⟩

/-- A fork of a scope stands where the scope stands, and is no class body. -/
theorem fork {operation : Registering Node ScopeId} {name : String}
    (placed : Placed roots owner outer path catalogue state reading) {scope : ScopeId}
    (stands : StandsAt catalogue scope around isClass) (unrecorded : Unrecorded operation)
    (ends : forall place, catalogue.place? scope = some place ->
      Ends (operation state.registry)
        (fun child after => hasSigil name = true ∧ child = catalogue.places.length ∧
          Catalogued owner after (catalogue.addInside place false))
        (fun _ after => hasSigil name = false ∧ after = state.registry)) :
    Lands catalogue (onRegistry operation state) fun child later after =>
      Placed roots owner outer path later after reading ∧ StandsAt later child around false := by
  apply placed.silently unrecorded
  intro child registry answered
  obtain ⟨place, found, rfl, -⟩ := stands
  have known := ends place found
  rw [answered] at known
  obtain ⟨-, rfl, later⟩ := known
  exact ⟨_, Catalogue.keepsPlaces_add _ _, later, fun _ _ => rfl, _,
    Catalogue.place?_addInside catalogue place false, rfl, rfl⟩

/-- A bound variable opens a child scope at the same path, which is no class body. -/
theorem bindVariable (placed : Placed roots owner outer path catalogue state reading)
    {scope : ScopeId} (stands : StandsAt catalogue scope around isClass) (name : String)
    (binding : Binding Node) :
    Lands catalogue (onRegistry (Scopes.bindVariable scope name binding) state)
      fun child later after => Placed roots owner outer path later after reading ∧
        StandsAt later child around false :=
  placed.fork stands (Unrecorded.bindVariable scope name binding)
    fun _ found => placed.catalogued.bindVariable found name binding

/-- A reference to a global opens a child scope at the same path, which is no class body. -/
theorem bindByReference (placed : Placed roots owner outer path catalogue state reading)
    {scope : ScopeId} (stands : StandsAt catalogue scope around isClass) (name : String)
    (node : Node) :
    Lands catalogue (onRegistry (Scopes.bindByReference scope name node) state)
      fun child later after => Placed roots owner outer path later after reading ∧
        StandsAt later child around false :=
  placed.fork stands (Unrecorded.bindByReference scope name node)
    fun _ found => placed.catalogued.bindByReference found name node

/-- A namespace is declared in the current scope. -/
theorem declareNamespace (placed : Placed roots owner outer path catalogue state reading)
    {here : ScopeId} (stands : StandsAt catalogue here path isClass) (name : String) :
    Lands catalogue (onRegistry (Scopes.declareNamespace here name) state)
      fun space later after => Placed roots owner outer path later after reading ∧
        StandsAt later space (path ++ (segmentsOf name.toList).map Text.lower) false := by
  apply placed.silently (Unrecorded.declareNamespace here name)
  intro space registry answered
  obtain ⟨place, found, rfl, -⟩ := stands
  have ends := placed.catalogued.declareNamespace_ends found name
  rw [answered] at ends
  refine ⟨_, Catalogue.keepsPlaces_enter _ _ _, ends.1, ?_, _, ends.2, rfl, rfl⟩
  intro around key
  rw [Catalogue.entries_enter]

end Placed

end PhpTaint.Annotation
