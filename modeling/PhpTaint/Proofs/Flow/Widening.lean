import PhpTaint.Proofs.Flow.Binding

/-!
# What stays bound

A call binds its arguments one after the other, and the default values of the other
parameters last. Nothing that is bound to a name is taken away on the way: what one
argument brings is among what the name holds in the end, whatever else is bound to it.
So the fate of an argument is decided where it is bound: `bindArguments_split`.
-/

namespace PhpTaint.Flow

open Scopes Syntax Rules

variable {program : Program} {memory after : Memory} {summary : Summary}
  {table arguments : Table String Deps} {deps : Deps} {bound : Bound}

/-- Every name that is bound stays bound, with all its leaves. -/
def Widens (before after : Table String Deps) : Prop :=
  forall name kept, before.find? name = some kept ->
    ∃ wider, after.find? name = some wider ∧ forall leaf, leaf ∈ kept.keys -> leaf ∈ wider.keys

namespace Widens

theorem refl (arguments : Table String Deps) : Widens arguments arguments :=
  fun _ kept found => ⟨kept, found, fun _ listed => listed⟩

/-- What is widened twice is widened. -/
theorem trans {first second third : Table String Deps} (widens : Widens first second)
    (more : Widens second third) : Widens first third := by
  intro name kept found
  obtain ⟨wider, widerFound, within⟩ := widens name kept found
  obtain ⟨widest, widestFound, again⟩ := more name wider widerFound
  exact ⟨widest, widestFound, fun leaf listed => again leaf (within leaf listed)⟩

/-- Filling a name that is free leaves the others as they are. -/
theorem insert {name : String} (free : arguments.find? name = none) (deps : Deps) :
    Widens arguments (arguments.insert name deps) := by
  intro other kept found
  refine ⟨kept, ?_, fun _ listed => listed⟩
  rw [Table.find?_insert_of_ne _ _ ?_]
  · exact found
  · rintro rfl
    rw [free] at found
    cases found

/-- Binding a name only adds to what is bound. -/
theorem bindName (arguments : Table String Deps) (name : String) (deps : Deps) :
    Widens arguments (bindName arguments name deps) := by
  unfold Flow.bindName
  cases earlier : arguments.find? name with
  | none => exact insert earlier deps
  | some bound =>
      intro other kept found
      simp only [Table.find?_insert]
      by_cases same : other = name
      · subst same
        obtain rfl : bound = kept := Option.some.inj (earlier.symm.trans found)
        refine ⟨_, if_pos rfl, fun leaf listed => ?_⟩
        rw [Dependencies.mergeTwo_eq]
        exact Dependencies.mem_keys_merge.2 ⟨bound, List.mem_cons_self .., listed⟩
      · exact ⟨kept, (if_neg same).trans found, fun _ listed => listed⟩

/-- Binding names only adds to what is bound. -/
theorem bindNames (names : List String) (arguments : Table String Deps) (deps : Deps) :
    Widens arguments (names.foldl (fun current name => Flow.bindName current name deps) arguments) := by
  induction names generalizing arguments with
  | nil => exact refl arguments
  | cons name rest inductionHypothesis =>
      exact (bindName arguments name deps).trans (inductionHypothesis _)

end Widens

/-- The leaves of dependencies are among those bound to a name. -/
def KeptAt (arguments : Table String Deps) (name : String) (deps : Deps) : Prop :=
  ∃ kept, arguments.find? name = some kept ∧ forall leaf, leaf ∈ deps.keys -> leaf ∈ kept.keys

namespace KeptAt

/-- What is kept stays kept while more is bound. -/
theorem widen {before after : Table String Deps} {name : String} (kept : KeptAt before name deps)
    (widens : Widens before after) : KeptAt after name deps := by
  obtain ⟨bound, found, within⟩ := kept
  obtain ⟨wider, widerFound, again⟩ := widens name bound found
  exact ⟨wider, widerFound, fun leaf listed => again leaf (within leaf listed)⟩

/-- What is bound to a name is kept there. -/
theorem bindName (arguments : Table String Deps) (name : String) (deps : Deps) :
    KeptAt (Flow.bindName arguments name deps) name deps := by
  unfold Flow.bindName
  cases arguments.find? name with
  | none => exact ⟨deps, Table.find?_insert_self .., fun _ listed => listed⟩
  | some earlier =>
      refine ⟨_, Table.find?_insert_self .., fun leaf listed => ?_⟩
      rw [Dependencies.mergeTwo_eq]
      exact Dependencies.mem_keys_merge.2
        ⟨deps, List.mem_cons_of_mem _ (List.mem_cons_self ..), listed⟩

/-- What is bound to several names is kept at each of them. -/
theorem bindNames {names : List String} {name : String} (listed : name ∈ names)
    (arguments : Table String Deps) (deps : Deps) :
    KeptAt (names.foldl (fun current name => Flow.bindName current name deps) arguments) name
      deps := by
  induction names generalizing arguments with
  | nil => cases listed
  | cons first rest inductionHypothesis =>
      rw [List.foldl_cons]
      rcases List.mem_cons.1 listed with rfl | later
      · exact (bindName arguments name deps).widen (Widens.bindNames _ _ _)
      · exact inductionHypothesis later _

end KeptAt

/-- Binding an argument takes nothing away. -/
theorem Bound.widens_bind (summary : Summary) (bound : Bound) (argument value : Node) (deps : Deps) :
    Widens bound.arguments (bound.bind summary argument value deps).arguments := by
  unfold Bound.bind
  dsimp only
  split
  · exact Widens.bindName _ _ _
  · split
    · exact Widens.bindNames _ _ _
    · cases summary.parameters[bound.position]? with
      | none => exact Widens.refl _
      | some parameter => exact Widens.bindName _ _ _

section Runs

variable {α β : Type} {trace : Node -> Tracing Deps}

/-- Two steps that end with a value both do. -/
theorem run_bind_eq_ok {first : Tracing β} {next : β -> Tracing α} {value : α} :
    (first >>= next) program memory = .ok value after ↔
      ∃ result middle, first program memory = .ok result middle ∧
        next result program middle = .ok value after :=
  Outcome.bind_eq_ok

/-- Binding one argument is tracing its value, if it has one. -/
theorem bindArgument_eq_ok {argument value : Node} (passed : argument.argumentValue = some value)
    {next : Bound} :
    bindArgument trace summary bound argument program memory = .ok next after ↔
      ∃ deps, trace value program memory = .ok deps after ∧
        next = bound.bind summary argument value deps := by
  unfold bindArgument
  rw [passed]
  simp only
  rw [run_bind_eq_ok]
  constructor
  · rintro ⟨deps, middle, traced, ended⟩
    cases ended
    exact ⟨deps, traced, rfl⟩
  · rintro ⟨deps, traced, rfl⟩
    exact ⟨deps, after, traced, rfl⟩

/-- An argument without a value is not bound. -/
theorem bindArgument_absent {argument : Node} (absent : argument.argumentValue = none) :
    bindArgument trace summary bound argument program memory = .ok bound memory := by
  unfold bindArgument
  rw [absent]
  rfl

/-- What one argument more preserves, with or without a value, holds after all of them.
The number of arguments is counted along. -/
theorem foldlM_bindArgument_kept (holds : Nat -> Bound -> Prop) {items : List Node}
    (valued : forall count bound argument value deps, argument ∈ items ->
      argument.argumentValue = some value -> holds count bound ->
        holds (count + 1) (bound.bind summary argument value deps))
    (unvalued : forall count bound argument, argument ∈ items -> argument.argumentValue = none ->
      holds count bound -> holds (count + 1) bound)
    (count : Nat) {final : Bound} (start : holds count bound)
    (ended : items.foldlM (bindArgument trace summary) bound program memory = .ok final after) :
    holds (count + items.length) final := by
  induction items generalizing bound memory count with
  | nil =>
      cases ended
      exact start
  | cons argument rest inductionHypothesis =>
      rw [List.foldlM_cons] at ended
      obtain ⟨next, middle, first, later⟩ := run_bind_eq_ok.1 ended
      have here : argument ∈ argument :: rest := List.mem_cons_self ..
      have stepped : holds (count + 1) next := by
        cases passed : argument.argumentValue with
        | none =>
            rw [bindArgument_absent passed] at first
            cases first
            exact unvalued count bound argument here passed start
        | some value =>
            obtain ⟨deps, -, rfl⟩ := (bindArgument_eq_ok passed).1 first
            exact valued count bound argument value deps here passed start
      rw [List.length_cons, Nat.add_comm rest.length, ← Nat.add_assoc]
      exact inductionHypothesis
        (fun count bound argument value deps member =>
          valued count bound argument value deps (List.mem_cons_of_mem _ member))
        (fun count bound argument member =>
          unvalued count bound argument (List.mem_cons_of_mem _ member)) (count + 1) stepped later

/-- Binding more arguments takes nothing away. -/
theorem foldlM_bindArgument_widens {items : List Node} {final : Bound}
    (ended : items.foldlM (bindArgument trace summary) bound program memory = .ok final after) :
    Widens bound.arguments final.arguments := by
  refine foldlM_bindArgument_kept (fun _ next => Widens bound.arguments next.arguments)
    (fun _ next argument value deps _ _ widens => ?_) (fun _ _ _ _ _ widens => widens) 0
    (Widens.refl _) ended
  exact widens.trans (next.widens_bind summary argument value deps)

/-- Default values take nothing away. -/
theorem foldlM_bindDefault_widens {parameters : List Node}
    (ended : parameters.foldlM (bindDefault trace) arguments program memory = .ok table after) :
    Widens arguments table := by
  induction parameters generalizing arguments memory with
  | nil =>
      cases ended
      exact Widens.refl _
  | cons parameter rest inductionHypothesis =>
      rw [List.foldlM_cons] at ended
      obtain ⟨next, middle, first, later⟩ := run_bind_eq_ok.1 ended
      refine Widens.trans ?_ (inductionHypothesis later)
      unfold bindDefault at first
      cases labelled : parameter.child? "default_value" with
      | none =>
          rw [labelled] at first
          cases first
          exact Widens.refl _
      | some value =>
          rw [labelled] at first
          simp only at first
          split at first
          · cases first
            exact Widens.refl _
          · rename_i free
            obtain ⟨deps, _, traced, ended⟩ := run_bind_eq_ok.1 first
            cases ended
            exact Widens.insert (Option.not_isSome_iff_eq_none.1 free) deps

/-- What one argument of a call is bound to stays bound. -/
theorem bindArguments_split {earlier later : List Node} {argument value : Node}
    (passed : argument.argumentValue = some value)
    (ended : bindArguments trace summary (earlier ++ argument :: later) program memory =
      .ok table after) :
    ∃ bound before deps middle,
      earlier.foldlM (bindArgument trace summary) ⟨∅, 0⟩ program memory = .ok bound before ∧
        trace value program before = .ok deps middle ∧
        Widens (bound.bind summary argument value deps).arguments table := by
  obtain ⟨filled, halfway, given, defaults⟩ := run_bind_eq_ok.1 ended
  rw [List.foldlM_append] at given
  obtain ⟨bound, before, first, given⟩ := run_bind_eq_ok.1 given
  rw [List.foldlM_cons] at given
  obtain ⟨next, middle, bindsOne, rest⟩ := run_bind_eq_ok.1 given
  obtain ⟨deps, traced, rfl⟩ := (bindArgument_eq_ok passed).1 bindsOne
  exact ⟨bound, before, deps, middle, first, traced,
    (foldlM_bindArgument_widens rest).trans (foldlM_bindDefault_widens defaults)⟩

end Runs

end PhpTaint.Flow
