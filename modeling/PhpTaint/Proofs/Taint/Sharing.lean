import PhpTaint.Proofs.Taint.Merging
import PhpTaint.Proofs.Tandem
import PhpTaint.Taint.Ledger

/-!
# Merging shared records

Dependency maps share their records, so a merge that wrote to a record would change maps
that it was not given. It only writes new ones: `Keeps` says that a ledger still has all
records of an earlier one, and `Shows` which dependencies a shared map stands for. Merging
shared maps shows the merge of what they show, and that is all it does.
-/

namespace PhpTaint

variable {δ : Type}

namespace Ledger

/-- Every record is still there, unchanged. -/
def Keeps (before after : Ledger δ) : Prop :=
  forall ref record, before.get? ref = some record -> after.get? ref = some record

/-- The dependencies that a shared map stands for. -/
abbrev Shows (ledger : Ledger δ) (map : SharedDependencies) (deps : Dependencies δ) : Prop :=
  Table.Resembles (fun ref record => ledger.get? ref = some record) map deps

variable {ledger final : Ledger δ} {map merged : SharedDependencies} {deps added : Dependencies δ}

namespace Keeps

theorem refl (ledger : Ledger δ) : ledger.Keeps ledger := fun _ _ present => present

theorem trans {first second third : Ledger δ} (one : first.Keeps second)
    (other : second.Keeps third) : first.Keeps third :=
  fun ref record present => other ref record (one ref record present)

theorem add (ledger : Ledger δ) (record : Record δ) : ledger.Keeps (ledger.add record).2 := by
  intro ref old present
  unfold get? at present ⊢
  obtain ⟨inside, _⟩ := Array.getElem?_eq_some_iff.1 present
  rw [Ledger.add, Array.getElem?_push_lt inside, ← present, Array.getElem?_eq_getElem inside]

/-- A pass whose steps keep the records keeps them. -/
theorem foldlM {ι : Type} {step : SharedDependencies × Ledger δ -> ι ->
      Option (SharedDependencies × Ledger δ)}
    (each : forall state item next, step state item = some next -> state.2.Keeps next.2)
    {items : List ι} {start result : SharedDependencies × Ledger δ}
    (run : items.foldlM step start = some result) : start.2.Keeps result.2 := by
  induction items generalizing start with
  | nil =>
      cases run
      exact .refl _
  | cons item rest inductionHypothesis =>
      rw [List.foldlM_cons, Option.bind_eq_bind, Option.bind_eq_some_iff] at run
      obtain ⟨between, first, later⟩ := run
      exact (each start item between first).trans (inductionHypothesis later)

end Keeps

theorem get?_add (ledger : Ledger δ) (record : Record δ) :
    (ledger.add record).2.get? (ledger.add record).1 = some record :=
  Array.getElem?_push_size

theorem Shows.mono (shows : ledger.Shows map deps) (keeps : ledger.Keeps final) :
    final.Shows map deps :=
  List.Forall₂.imp (fun _ _ related => ⟨related.1, keeps _ _ related.2⟩) shows

section Reading

/-- Reading collects the records and inserts them. -/
theorem read?_eq (ledger : Ledger δ) (map : SharedDependencies) :
    ledger.read? map = (fun shown => (∅ : Dependencies δ).insertMany shown) <$>
      map.entries.mapM fun entry => (fun record => (entry.1, record)) <$> ledger.get? entry.2 := by
  unfold read?
  refine Outcome.foldlM_eq_mapM _ 
    (fun (result : Dependencies δ) (entry : String × Record δ) => result.insert entry.1 entry.2)
    ?_ _ _
  intro result entry
  cases ledger.get? entry.2 <;> rfl

/-- Records under keys that are distinct are inserted as they stand. -/
theorem entries_of_shown {shown : List (String × Record δ)}
    (related : List.Forall₂ (fun shared entry =>
      shared.1 = entry.1 ∧ ledger.get? shared.2 = some entry.2) map.entries shown) :
    ((∅ : Dependencies δ).insertMany shown).entries = shown := by
  have keys : List.Forall₂ Eq (map.entries.map Prod.fst) (shown.map Prod.fst) := by
    rw [List.forall₂_map_left_iff, List.forall₂_map_right_iff]
    exact related.imp fun _ _ same => same.1
  rw [List.forall₂_eq_eq_eq] at keys
  refine Table.entries_insertMany ?_
  show (shown.map Prod.fst).Nodup
  rw [← keys]
  exact map.keysDistinct

/-- Reading gives the records that a map shows, in the order of the map. -/
theorem read?_eq_some_iff : ledger.read? map = some deps ↔ ledger.Shows map deps := by
  have stands : forall (shared : String × RecordRef) (entry : String × Record δ),
      (fun record => (shared.1, record)) <$> ledger.get? shared.2 = some entry ↔
        shared.1 = entry.1 ∧ ledger.get? shared.2 = some entry.2 := by
    rintro ⟨leaf, ref⟩ ⟨other, record⟩
    rw [Option.map_eq_map, Option.map_eq_some_iff]
    simp [and_comm]
  rw [read?_eq, Option.map_eq_map, Option.map_eq_some_iff]
  simp only [Outcome.mapM_eq_some_iff, stands]
  constructor
  · rintro ⟨shown, related, rfl⟩
    show List.Forall₂ _ map.entries _
    rwa [entries_of_shown related]
  · intro shows
    exact ⟨deps.entries, shows, Table.ext (entries_of_shown shows)⟩

/-- Some maps can be read exactly if they show some dependencies. -/
theorem mapM_read?_eq_some_iff {maps : List SharedDependencies} {parts : List (Dependencies δ)} :
    maps.mapM ledger.read? = some parts ↔ List.Forall₂ ledger.Shows maps parts := by
  simp only [Outcome.mapM_eq_some_iff, read?_eq_some_iff]

end Reading

section Merging

/-- Adding a reference writes at most a new record. -/
theorem keeps_of_absorb? {state next : SharedDependencies × Ledger δ} {entry : String × RecordRef}
    (absorbed : absorb? state entry = some next) : state.2.Keeps next.2 := by
  simp only [absorb?] at absorbed
  cases present : state.1.find? entry.1 with
  | none =>
      rw [present] at absorbed
      cases absorbed
      exact .refl _
  | some existing =>
      simp only [present, Option.bind_eq_bind, Option.bind_eq_some_iff] at absorbed
      obtain ⟨first, _, second, _, same⟩ := absorbed
      cases same
      exact Keeps.add state.2 (first.join second)

/-- Merging shared maps modifies no record, of the maps or elsewhere. -/
theorem keeps_of_merge? {maps : List SharedDependencies}
    (run : ledger.merge? maps = some (merged, final)) : ledger.Keeps final :=
  Keeps.foldlM (fun _ _ _ absorbed => Keeps.foldlM (fun _ _ _ => keeps_of_absorb?) absorbed) run

/-- Adding a reference adds the record behind it. -/
theorem absorb?_shows (shows : ledger.Shows merged deps) {leaf : String} {ref : RecordRef}
    {record : Record δ} (present : ledger.get? ref = some record) :
    ∃ next final, absorb? (merged, ledger) (leaf, ref) = some (next, final) ∧
      final.Shows next (deps.absorb leaf record) := by
  have found := shows.find? leaf
  simp only [absorb?, Dependencies.absorb]
  generalize merged.find? leaf = shared at found
  generalize deps.find? leaf = existing at found
  cases found with
  | none => exact ⟨_, _, rfl, shows.insert leaf present⟩
  | @some shared existing known =>
      simp only [known, present, Option.bind_eq_bind, Option.bind_some]
      exact ⟨_, _, rfl, (shows.mono (.add ledger _)).insert leaf (get?_add ledger _)⟩

/-- A pass whose steps add what their items stand for shows what they add up to. -/
theorem foldlM_shows {ι κ : Type} (standsFor : Ledger δ -> ι -> κ -> Prop)
    {step : SharedDependencies × Ledger δ -> ι -> Option (SharedDependencies × Ledger δ)}
    {add : Dependencies δ -> κ -> Dependencies δ}
    (lasting : forall before after item meant, before.Keeps after ->
      standsFor before item meant -> standsFor after item meant)
    (keeps : forall state item next, step state item = some next -> state.2.Keeps next.2)
    (each : forall ledger merged deps item meant, ledger.Shows merged deps ->
      standsFor ledger item meant -> ∃ next final, step (merged, ledger) item = some (next, final) ∧
        final.Shows next (add deps meant))
    {items : List ι} {meanings : List κ} (pairs : List.Forall₂ (standsFor ledger) items meanings)
    (shows : ledger.Shows merged deps) :
    ∃ next final, items.foldlM step (merged, ledger) = some (next, final) ∧
      final.Shows next (meanings.foldl add deps) := by
  induction items generalizing ledger merged deps meanings with
  | nil =>
      cases pairs
      exact ⟨merged, ledger, rfl, shows⟩
  | cons item rest inductionHypothesis =>
      cases pairs with
      | cons first later =>
          obtain ⟨next, extended, stepped, shown⟩ := each ledger merged deps item _ shows first
          have kept := keeps _ _ _ stepped
          obtain ⟨result, final, run, shownAtLast⟩ := inductionHypothesis
            (List.Forall₂.imp (fun item meant => lasting _ _ item meant kept) later) shown
          refine ⟨result, final, ?_, shownAtLast⟩
          rw [List.foldlM_cons, stepped]
          exact run

/-- Shared maps that can be read can be merged, to a map that shows the merge of what they
show. -/
theorem merge?_shows {maps : List SharedDependencies} {parts : List (Dependencies δ)}
    (shows : List.Forall₂ ledger.Shows maps parts) :
    ∃ merged final, ledger.merge? maps = some (merged, final) ∧
      final.Shows merged (Dependencies.merge parts) := by
  refine foldlM_shows Shows (fun _ _ _ _ kept shows => shows.mono kept)
    (fun _ _ _ => Keeps.foldlM fun _ _ _ => keeps_of_absorb?) ?_ shows .empty
  intro ledger merged deps map added shown others
  have pairs : List.Forall₂ (fun (shared : String × RecordRef) (entry : String × Record δ) =>
    shared.1 = entry.1 ∧ ledger.get? shared.2 = some entry.2) map.entries added.entries := others
  refine foldlM_shows (fun ledger shared entry => shared.1 = entry.1 ∧
    ledger.get? shared.2 = some entry.2) ?_ (fun _ _ _ => keeps_of_absorb?) ?_ pairs shown
  · rintro _ _ _ _ kept ⟨same, present⟩
    exact ⟨same, kept _ _ present⟩
  · rintro ledger merged deps ⟨leaf, ref⟩ ⟨other, record⟩ shows ⟨rfl, present⟩
    exact absorb?_shows shows present

end Merging

end Ledger

namespace Dependencies

/-- The laws of merging. The leaves come in the order in which they are first met. At each
leaf, name and definition are those of the first record; level, sanitizers, common and revoked
ones are total over all records. Parts may be merged group by group; neither their order nor
their repetition has an influence on what a leaf comes to, and what has been merged may be left
out where it is repeated. Level and sanitizers of the whole are those of the parts taken
together, and parts may be passed for a parameter before or after they are merged. Where
records are shared, the merge leaves all of them as they are, so that the parts still stand
for what they did before. -/
theorem merge_laws (parts : List (Dependencies δ)) :
    (merge parts).keys = (parts.flatMap Table.keys).eraseDups ∧
    (forall leaf first rest, (parts.filterMap fun part => part.find? leaf) = first :: rest ->
      ∃ total, (merge parts).find? leaf = some total ∧
        total.name = first.name ∧ total.definition = first.definition ∧
        (forall record, record ∈ first :: rest -> record.level.rank <= total.level.rank) ∧
        (∃ record, record ∈ first :: rest ∧ record.level = total.level) ∧
        (forall name, name ∈ total.sanitizers ↔
          ∃ record, record ∈ first :: rest ∧ name ∈ record.sanitizers) ∧
        (forall name, name ∈ total.revoked ↔
          ∃ record, record ∈ first :: rest ∧ name ∈ record.revoked) ∧
        forall name, name ∈ total.common ↔
          forall record, record ∈ first :: rest -> name ∈ record.common) ∧
    (forall groups : List (List (Dependencies δ)), groups.flatten = parts ->
      merge (groups.map merge) = merge parts) ∧
    (forall others : List (Dependencies δ), (forall part, part ∈ others ↔ part ∈ parts) ->
      (forall leaf, leaf ∈ (merge others).keys ↔ leaf ∈ (merge parts).keys) ∧
      forall leaf total other, (merge parts).find? leaf = some total ->
        (merge others).find? leaf = some other ->
          other.level = total.level ∧ other.sanitizers = total.sanitizers ∧
            other.common = total.common ∧ other.revoked = total.revoked) ∧
    (forall before part after, before ++ after = parts -> part ∈ before ->
      merge (before ++ part :: after) = merge parts) ∧
    (forall copies, copies ⊆ parts -> merge (parts ++ copies) = merge parts) ∧
    (merge parts).summarize = (Level.joinAll (parts.map fun part => part.summarize.1),
      parts.foldl (fun names part => names ∪ part.summarize.2) ∅) ∧
    (forall parameter : Record δ,
      merge (parts.map fun part => part.mapValues fun record => record.passedThrough parameter) =
        (merge parts).mapValues fun record => record.passedThrough parameter) ∧
    forall (ledger : Ledger δ) (maps : List SharedDependencies),
      maps.mapM ledger.read? = some parts ->
        ∃ merged final, ledger.merge? maps = some (merged, final) ∧
          final.read? merged = some (merge parts) ∧ maps.mapM final.read? = some parts ∧
          forall ref record, ledger.get? ref = some record -> final.get? ref = some record := by
  refine ⟨keys_merge parts, ?_, ?_, fun others => merge_alike, ?_, ?_, ?_, ?_, ?_⟩
  · intro leaf first rest records
    obtain ⟨total, present, name, definition, totals⟩ := exists_total_of_records records
    exact ⟨total, present, name, definition, totals.rank_le, totals.attained,
      fun name => ⟨totals.sanitizers name, totals.allSanitizers trivial name⟩, totals.revoked,
      fun name => ⟨totals.common name, totals.allCommon trivial name⟩⟩
  · rintro groups rfl
    exact merge_map_merge groups
  · rintro before part after rfl member
    exact merge_insert_copy member
  · intro copies among
    induction copies using List.reverseRecOn with
    | nil => rw [List.append_nil]
    | append_singleton copies part inductionHypothesis =>
        obtain ⟨earlier, last⟩ := List.append_subset.1 among
        have listed := List.mem_append_left copies (last (List.mem_cons_self ..))
        rw [← List.append_assoc, merge_insert_copy listed, List.append_nil,
          inductionHypothesis earlier]
  · exact Prod.ext (level_merge parts) (sanitizers_merge parts)
  · intro parameter
    exact merge_map_mapValues (fun first second => first.passedThrough_join second parameter) parts
  · intro ledger maps read
    have shows := Ledger.mapM_read?_eq_some_iff.1 read
    obtain ⟨merged, final, run, shown⟩ := Ledger.merge?_shows shows
    have keeps := Ledger.keeps_of_merge? run
    refine ⟨merged, final, run, Ledger.read?_eq_some_iff.2 shown, ?_, keeps⟩
    exact Ledger.mapM_read?_eq_some_iff.2
      (List.Forall₂.imp (fun _ _ shows => shows.mono keeps) shows)

/-- Input that is encoded on one flow and raw on another: the merge writes a third record, in
which the sanitizer is no longer a common one, and leaves the other two alone. -/
theorem merge_laws_encoded :
    let encoded : Record Nat := (Record.leaf "$_GET" .tainted none).withSanitizer "htmlspecialchars"
    let raw : Record Nat := Record.leaf "$_GET" .tainted (some 7)
    let ledger : Ledger Nat := ⟨#[encoded, raw]⟩
    ∃ merged final,
      ledger.merge? [Table.ofList [("$_GET", 0)], Table.ofList [("$_GET", 1)]] =
        some (merged, final) ∧
      final.get? 0 = some encoded ∧ final.get? 1 = some raw ∧
      ∃ deps total, final.read? merged = some deps ∧ deps.find? "$_GET" = some total ∧
        total.definition = none ∧ "htmlspecialchars" ∈ total.sanitizers ∧
        "htmlspecialchars" ∉ total.common := by
  intro encoded raw ledger
  obtain ⟨_, totals, _, _, _, _, _, _, shared⟩ :=
    merge_laws [single "$_GET" encoded, single "$_GET" raw]
  obtain ⟨merged, final, run, read, _, kept⟩ := shared ledger
    [Table.ofList [("$_GET", 0)], Table.ofList [("$_GET", 1)]] (by decide +kernel)
  obtain ⟨total, present, _, definition, _, _, sanitizers, _, common⟩ :=
    totals "$_GET" encoded [raw] rfl
  refine ⟨merged, final, run, kept 0 encoded rfl, kept 1 raw rfl, _, total, read, present,
    definition, ?_, ?_⟩
  · exact (sanitizers _).2 ⟨encoded, List.mem_cons_self .., by decide +kernel⟩
  · intro member
    exact absurd ((common _).1 member raw (List.mem_of_getLast? rfl)) (by decide +kernel)

end Dependencies

end PhpTaint
