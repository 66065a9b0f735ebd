import Mathlib.Data.List.Induction
import PhpTaint.Proofs.Outcome
import PhpTaint.Proofs.Table
import PhpTaint.Proofs.Text.Case
import PhpTaint.Rules.Load

/-!
# Which rule answers to a name

A rule is asked for by the normal spelling of a name, without separators in front and in
lower case. It is kept under its own name in lower case, so it answers to every spelling of
that name, unless the rule file itself spells the name fully qualified: the key of such a rule
begins with a separator, and no normal spelling does. Among the rules that answer, the last
sink, sanitizer or source and the first reversing function is taken.
-/

namespace PhpTaint.Rules

open Json

variable {σ ι α γ : Type}

section Names

/-- A rule of this name answers to the spelling. -/
def Answers (name spelling : String) : Prop :=
  name.toList.head? ≠ some '\\' ∧ normalizeName name = normalizeName spelling

instance (name spelling : String) : Decidable (Answers name spelling) :=
  inferInstanceAs (Decidable (_ ∧ _))

/-- A rule is found under its lower-case name if it answers. -/
theorem normalizeName_eq_lower_iff {name spelling : String} :
    normalizeName spelling = Text.lower name ↔ Answers name spelling := by
  constructor
  · intro same
    have plain : name.toList.head? ≠ some '\\' := by
      intro first
      refine head?_normalizeName spelling ?_
      rw [same]
      exact Text.head?_lower_iff.2 first
    exact ⟨plain, (normalizeName_eq_lower plain).trans same.symm⟩
  · rintro ⟨plain, same⟩
    rw [← normalizeName_eq_lower plain, same]

/-- Separators in front of a name that has none there are all dropped. -/
theorem dropWhile_replicate_append {chars : List Char} (plain : chars.head? ≠ some '\\')
    (count : Nat) : (List.replicate count '\\' ++ chars).dropWhile (· == '\\') = chars := by
  induction count with
  | zero => exact dropWhile_eq_self plain
  | succ count inductionHypothesis => exact inductionHypothesis

/-- A rule answers to the spellings that have its lower case, with any number of separators in
front, if its own name has none there. -/
theorem answers_iff {name spelling : String} :
    Answers name spelling ↔ name.toList.head? ≠ some '\\' ∧ ∃ count bare,
      spelling.toList = List.replicate count '\\' ++ bare.toList ∧
        Text.lower bare = Text.lower name := by
  refine and_congr_right fun plain => ?_
  rw [normalizeName_eq_lower plain]
  constructor
  · intro same
    have separators : forall char, char ∈ spelling.toList.takeWhile (· == '\\') -> char = '\\' :=
      fun char member => beq_iff_eq.1 (List.all_eq_true.1 List.all_takeWhile char member)
    refine ⟨(spelling.toList.takeWhile (· == '\\')).length, Text.dropLeading '\\' spelling, ?_,
      same.symm⟩
    rw [← List.eq_replicate_iff.2 ⟨rfl, separators⟩, Text.dropLeading, String.toList_ofList,
      List.takeWhile_append_dropWhile]
  · rintro ⟨count, bare, spelled, same⟩
    have plainBare : bare.toList.head? ≠ some '\\' := by
      intro first
      exact plain (Text.head?_lower_iff.1 (same ▸ Text.head?_lower_iff.2 first))
    rw [← same, normalizeName, Text.dropLeading, spelled,
      dropWhile_replicate_append plainBare, String.ofList_toList]

-- the lower case of a capital sigma at the end of a word is the final small one
example : Answers "ΛΟΓΟΣ" "\\Λογος" ∧ ¬ Answers "ΛΟΓΟΣ" "λογοσ" := by decide +kernel

end Names

section Entries

/-- The entries of all groups of a rule file that are lists, with the names of the groups. -/
def entriesOf : Document -> List (Scalar × Value)
  | .mapping groups => groups.flatMap fun group =>
      match group.2 with
      | .list entries => entries.map fun entry => (group.1, entry)
      | _ => []
  | .other _ => []

/-- A source as it is written. -/
structure SourceEntry where
  category : Scalar
  name : String
  description : Value

/-- A value that is a text. -/
def textOf? : Value -> Option String
  | .text text => some text
  | _ => none

/-- The parts of a value that consists of texts. -/
def textsOf? (value : Value) : Option (List String) := do
  let parts ← (requireParts value).toOption
  parts.mapM textOf?

/-- The name of an entry that is a mapping. -/
def nameOf? (fields : List (String × Value)) : Option String :=
  textOf? (Value.fieldD fields "name" (.text ""))

/-- The source of an entry: a bare name, or a mapping with a name. -/
def readSource? : Scalar × Value -> Option SourceEntry
  | (category, .text name) => some ⟨category, name, .text ""⟩
  | (category, .object fields) => do
      return ⟨category, ← nameOf? fields, Value.fieldD fields "description" (.text "")⟩
  | _ => none

/-- The key of a source: only functions are matched whatever the case of their letters. -/
def SourceEntry.key (entry : SourceEntry) : String :=
  if entry.category = functionCategory then Text.lower entry.name else entry.name

/-- The sink of an entry: a mapping with a name. -/
def readSink? : Scalar × Value -> Option SinkRule
  | (vulnerability, .object fields) => do
      return {
        name := ← nameOf? fields
        vulnerability := vulnerability
        severity := Value.fieldD fields "severity" (.text "HIGH")
        positions := Value.fieldD fields "arg_positions" (.list [.int 0])
        cwe := Value.fieldD fields "cwe" (.text "")
        kind := Value.fieldD fields "kind" (.text "function")
        description := Value.fieldD fields "description" (.text "") }
  | _ => none

/-- The sanitizer of an entry, with the names of its reversing functions. -/
def readSanitizer? : Scalar × Value -> Option (SanitizerRule × List String)
  | (category, .object fields) => do
      let rule : SanitizerRule := {
        name := ← nameOf? fields
        protectsAgainst := Value.fieldD fields "protects_against" (.list [.scalar category])
        reversedBy := Value.fieldD fields "reversed_by" (.list [])
        strength := Value.fieldD fields "strength" (.text "strong") }
      return (rule, ← textsOf? rule.reversedBy)
  | _ => none

/-- The sources of a file, in its order. -/
def sourceEntries (content : Document) : List SourceEntry :=
  (entriesOf content).filterMap readSource?

/-- The sinks of a file, in its order. -/
def sinkEntries (content : Document) : List SinkRule := (entriesOf content).filterMap readSink?

/-- The sanitizers of a file, in its order, with their reversing functions. -/
def sanitizerEntries (content : Document) : List (SanitizerRule × List String) :=
  (entriesOf content).filterMap readSanitizer?

/-- Rule files that consist of groups, in which every sink, every sanitizer and every source
that is a mapping has a name, and reversing functions are names. -/
structure WellTyped (sources sinks sanitizers : Document) : Prop where
  sourceGroups : ∃ groups, sources.entries = .ok groups
  sinkGroups : ∃ groups, sinks.entries = .ok groups
  sanitizerGroups : ∃ groups, sanitizers.entries = .ok groups
  sources : forall entry, entry ∈ entriesOf sources -> (entryFields entry.2).isOk ->
    (readSource? entry).isSome
  sinks : forall entry, entry ∈ entriesOf sinks -> (readSink? entry).isSome
  sanitizers : forall entry, entry ∈ entriesOf sanitizers -> (readSanitizer? entry).isSome

end Entries

section Folding

/-- Loading goes through the entries of a file. -/
theorem foldEntries_eq {content : Document} {step : Scalar -> σ -> Value -> Except Fault σ}
    (readable : ∃ groups, content.entries = .ok groups) (initial : σ) :
    foldEntries content initial step =
      (entriesOf content).foldlM (fun state entry => step entry.1 state entry.2) initial := by
  obtain ⟨groups, readable⟩ := readable
  unfold foldEntries
  rw [readable]
  cases content with
  | other value =>
      simp only [Document.entries] at readable
      split at readable
      · cases readable
      · cases readable
        rfl
  | mapping listed =>
      obtain rfl : listed = groups := Except.ok.inj readable
      clear readable
      show listed.foldlM _ initial = (listed.flatMap _).foldlM _ initial
      induction listed generalizing initial with
      | nil => rfl
      | cons group rest inductionHypothesis =>
          obtain ⟨name, value⟩ := group
          rw [List.foldlM_cons, List.flatMap_cons, List.foldlM_append]
          cases value with
          | scalar | object => exact inductionHypothesis initial
          | list entries =>
              rw [List.foldlM_map]
              exact congrArg _ (funext inductionHypothesis)

/-- A pass whose steps take up what they can read takes up all of it. -/
theorem foldlM_eq_foldl {step : σ -> ι -> Except Fault σ} {read : ι -> Option α}
    {add : σ -> α -> σ} {items : List ι}
    (each : forall item, item ∈ items -> forall state,
      step state item = .ok (((read item).map (add state)).getD state)) (start : σ) :
    items.foldlM step start = .ok ((items.filterMap read).foldl add start) := by
  induction items generalizing start with
  | nil => rfl
  | cons item rest inductionHypothesis =>
      have later := inductionHypothesis fun other member => each other (List.mem_cons_of_mem _ member)
      rw [List.foldlM_cons, each item (List.mem_cons_self ..)]
      cases found : read item with
      | none =>
          rw [List.filterMap_cons_none found]
          exact later start
      | some entry =>
          rw [List.filterMap_cons_some found, List.foldl_cons]
          exact later (add start entry)

variable (add : σ -> α -> σ) (look : σ -> Option γ) (hits : α -> Prop) [DecidablePred hits]
  (image : α -> γ)

/-- Where a hit replaces what was there, a pass leaves the last one. -/
theorem look_foldl_replacing (each : forall state entry, look (add state entry) =
      if hits entry then some (image entry) else look state)
    (entries : List α) (start : σ) :
    look (entries.foldl add start) =
      ((entries.filter fun entry => hits entry).getLast?.map image).or (look start) := by
  induction entries using List.reverseRecOn with
  | nil => rfl
  | append_singleton entries entry inductionHypothesis =>
      rw [List.foldl_append, List.foldl_cons, List.foldl_nil, each, List.filter_append]
      by_cases hit : hits entry
      · simp [hit]
      · simp [hit, inductionHypothesis]

/-- Where a hit leaves what is there, a pass leaves the first one. -/
theorem look_foldl_keeping (each : forall state entry, look (add state entry) =
      (look state).or (if hits entry then some (image entry) else none))
    (entries : List α) (start : σ) :
    look (entries.foldl add start) =
      (look start).or ((entries.filter fun entry => hits entry).head?.map image) := by
  induction entries generalizing start with
  | nil => simp
  | cons entry rest inductionHypothesis =>
      rw [List.foldl_cons, inductionHypothesis, each, Option.or_assoc]
      by_cases hit : hits entry
      · simp [hit]
      · simp [hit]

end Folding

section Loading

variable {entry : Scalar × Value}

/-- A value that is read as a text is that text. -/
theorem eq_text_of_textOf? {value : Value} {text : String} (reads : textOf? value = some text) :
    value = .text text := by
  unfold textOf? at reads
  split at reads
  · cases reads
    rfl
  · cases reads

/-- An entry that has a name passes the check for one. -/
theorem requireText_of_nameOf? {fields : List (String × Value)} {name : String}
    (named : nameOf? fields = some name) :
    requireText (Value.fieldD fields "name" (.text "")) = .ok name := by
  rw [eq_text_of_textOf? named]
  rfl

/-- A value that is read as texts passes the check for its parts. -/
theorem requireParts_of_textsOf? {value : Value} {names : List String}
    (reads : textsOf? value = some names) : requireParts value = .ok (names.map .text) := by
  obtain ⟨parts, found, texts⟩ := Option.bind_eq_some_iff.1 reads
  have same : List.Forall₂ Eq parts (names.map .text) := by
    rw [List.forall₂_map_right_iff]
    exact (Outcome.mapM_eq_some_iff.1 texts).imp fun _ _ => eq_text_of_textOf?
  rw [List.forall₂_eq_eq_eq] at same
  rw [Outcome.eq_ok_of_toOption found, same]

/-- The table of sources with one more. -/
def withSource (table : Table Scalar SourceRule) (source : SourceEntry) :
    Table Scalar SourceRule :=
  let spelled := ((table.find? (.text source.key)).map SourceRule.key).getD (.text source.key)
  table.insert (.text source.key) ⟨spelled, .text source.name, source.category, source.description⟩

/-- The table of sinks with one more. -/
def withSink (table : Table String SinkRule) (rule : SinkRule) : Table String SinkRule :=
  table.insert (Text.lower rule.name) rule

/-- The table of reversing functions with those of one more sanitizer. -/
def withReverses (sanitizer : String) (table : Table String String) (reverses : List String) :
    Table String String :=
  reverses.foldl (fun current reverse =>
    current.insertIfNew (Text.lower reverse) (Text.lower sanitizer)) table

/-- Sanitizers, and the sanitizer that each reversing function undoes. -/
abbrev SanitizerTables := Table String SanitizerRule × Table String String

/-- The tables of sanitizers and of reversing functions with one more sanitizer. -/
def withSanitizer (tables : SanitizerTables) (entry : SanitizerRule × List String) :
    SanitizerTables :=
  (tables.1.insert (Text.lower entry.1.name) entry.1,
    withReverses entry.1.name tables.2 entry.2)

/-- Adding a source adds the one that the entry is read as, or nothing. -/
theorem addSource_eq (named : (entryFields entry.2).isOk -> (readSource? entry).isSome)
    (table : Table Scalar SourceRule) :
    addSource entry.1 table entry.2 =
      .ok (((readSource? entry).map (withSource table)).getD table) := by
  have added : forall category fields name, nameOf? fields = some name ->
      addSourceFields category table fields = .ok (withSource table
        ⟨category, name, Value.fieldD fields "description" (.text "")⟩) := by
    intro category fields name named
    unfold addSourceFields withSource SourceEntry.key
    rw [eq_text_of_textOf? named]
    by_cases isFunction : category = functionCategory
    · rw [if_pos isFunction, if_pos isFunction]
      rfl
    · rw [if_neg isFunction, if_neg isFunction]
      rfl
  obtain ⟨category, value⟩ := entry
  cases value with
  | list => rfl
  | object fields =>
      obtain ⟨source, reads⟩ := Option.isSome_iff_exists.1 (named rfl)
      obtain ⟨name, isName, same⟩ := Option.bind_eq_some_iff.1 reads
      cases same
      rw [reads]
      exact added category fields name isName
  | scalar scalar =>
      cases scalar with
      | null | bool | int | decimal => rfl
      | text name => exact added category [("name", .text name)] name rfl

/-- Adding a sink adds the one that the entry is read as, or nothing. -/
theorem addSink_eq (typed : (readSink? entry).isSome) (table : Table String SinkRule) :
    addSink entry.1 table entry.2 = .ok (((readSink? entry).map (withSink table)).getD table) := by
  obtain ⟨rule, reads⟩ := Option.isSome_iff_exists.1 typed
  rw [reads]
  obtain ⟨vulnerability, value⟩ := entry
  cases value with
  | scalar | list => cases reads
  | object fields =>
      obtain ⟨name, named, same⟩ := Option.bind_eq_some_iff.1 reads
      cases same
      change requireText _ >>= _ = _
      rw [requireText_of_nameOf? named]
      rfl

/-- Adding reversing functions adds those that the value is read as. -/
theorem addReverses_eq {reversedBy : Value} {reverses : List String}
    (texts : textsOf? reversedBy = some reverses) (sanitizer : String)
    (table : Table String String) :
    addReverses sanitizer table reversedBy = .ok (withReverses sanitizer table reverses) := by
  unfold addReverses
  rw [requireParts_of_textsOf? texts]
  show (reverses.map Value.text).foldlM _ table = _
  unfold withReverses
  clear texts
  induction reverses generalizing table with
  | nil => rfl
  | cons reverse rest inductionHypothesis => exact inductionHypothesis _

/-- Adding a sanitizer adds the one that the entry is read as, or nothing. -/
theorem addSanitizer_eq (typed : (readSanitizer? entry).isSome)
    (tables : SanitizerTables) :
    addSanitizer entry.1 tables entry.2 =
      .ok (((readSanitizer? entry).map (withSanitizer tables)).getD tables) := by
  obtain ⟨rule, reads⟩ := Option.isSome_iff_exists.1 typed
  rw [reads]
  obtain ⟨category, value⟩ := entry
  cases value with
  | scalar | list => cases reads
  | object fields =>
      obtain ⟨name, named, reads⟩ := Option.bind_eq_some_iff.1 reads
      obtain ⟨reverses, texts, same⟩ := Option.bind_eq_some_iff.1 reads
      cases same
      change requireText _ >>= _ = _
      rw [requireText_of_nameOf? named]
      change addReverses name tables.2 _ >>= _ = _
      rw [addReverses_eq texts]
      rfl

/-- The rules of some entries. -/
def RuleSet.ofEntries (sources : List SourceEntry) (sinks : List SinkRule)
    (sanitizers : List (SanitizerRule × List String)) : RuleSet :=
  let tables := sanitizers.foldl withSanitizer (∅, ∅)
  ⟨sources.foldl withSource ∅, sinks.foldl withSink ∅, tables.1, tables.2⟩

/-- Well-typed files are loaded, with all their entries. -/
theorem RuleSet.ofContents_eq {sources sinks sanitizers : Document}
    (typed : WellTyped sources sinks sanitizers) :
    RuleSet.ofContents sources sinks sanitizers = .ok (RuleSet.ofEntries (sourceEntries sources)
      (sinkEntries sinks) (sanitizerEntries sanitizers)) := by
  have sourceTable : sourcesOf sources = .ok ((sourceEntries sources).foldl withSource ∅) :=
    (foldEntries_eq typed.sourceGroups ∅).trans
      (foldlM_eq_foldl (fun entry listed => addSource_eq (typed.sources entry listed)) ∅)
  have sinkTable : sinksOf sinks = .ok ((sinkEntries sinks).foldl withSink ∅) :=
    (foldEntries_eq typed.sinkGroups ∅).trans
      (foldlM_eq_foldl (fun entry listed => addSink_eq (typed.sinks entry listed)) ∅)
  have tables : sanitizersOf sanitizers =
      .ok ((sanitizerEntries sanitizers).foldl withSanitizer (∅, ∅)) :=
    (foldEntries_eq typed.sanitizerGroups (∅, ∅)).trans
      (foldlM_eq_foldl (fun entry listed => addSanitizer_eq (typed.sanitizers entry listed)) _)
  unfold RuleSet.ofContents
  rw [sourceTable, sinkTable, tables]
  rfl

end Loading

section Lookups

variable (sources : List SourceEntry) (sinks : List SinkRule)
  (sanitizers : List (SanitizerRule × List String)) (spelling : String)

/-- The sink that is found is the last one that answers. -/
theorem sink?_ofEntries :
    (RuleSet.ofEntries sources sinks sanitizers).sink? spelling =
      (sinks.filter fun rule => Answers rule.name spelling).getLast? := by
  have each : forall table rule, (withSink table rule).find? (normalizeName spelling) =
      if Answers rule.name spelling then some rule else table.find? (normalizeName spelling) := by
    intro table rule
    rw [withSink, Table.find?_insert]
    exact if_congr normalizeName_eq_lower_iff rfl rfl
  have looked := look_foldl_replacing withSink
    (fun table => table.find? (normalizeName spelling))
    (fun rule => Answers rule.name spelling) id each sinks ∅
  rw [Option.map_id] at looked
  exact looked.trans (Option.or_none ..)

/-- The sanitizer that is found is the last one that answers. -/
theorem sanitizer?_ofEntries :
    (RuleSet.ofEntries sources sinks sanitizers).sanitizer? spelling =
      (sanitizers.filter fun entry => Answers entry.1.name spelling).getLast?.map Prod.fst := by
  have each : forall tables entry,
      (withSanitizer tables entry).1.find? (normalizeName spelling) =
        if Answers entry.1.name spelling then some entry.1
        else tables.1.find? (normalizeName spelling) := by
    intro tables entry
    rw [withSanitizer, Table.find?_insert]
    exact if_congr normalizeName_eq_lower_iff rfl rfl
  have looked := look_foldl_replacing withSanitizer
    (fun tables => tables.1.find? (normalizeName spelling))
    (fun entry => Answers entry.1.name spelling) Prod.fst each sanitizers (∅, ∅)
  exact looked.trans (Option.or_none ..)

/-- What a reversing function undoes stays; a new one undoes the sanitizer that is added. -/
theorem find?_withReverses (sanitizer : String) (table : Table String String)
    (reverses : List String) :
    (withReverses sanitizer table reverses).find? (normalizeName spelling) =
      (table.find? (normalizeName spelling)).or
        (if ∃ reverse, reverse ∈ reverses ∧ Answers reverse spelling then
          some (Text.lower sanitizer) else none) := by
  unfold withReverses
  induction reverses generalizing table with
  | nil => simp
  | cons reverse rest inductionHypothesis =>
      rw [List.foldl_cons, inductionHypothesis, Table.find?_insertIfNew, Option.or_assoc]
      simp only [normalizeName_eq_lower_iff, List.mem_cons, exists_eq_or_imp]
      by_cases answers : Answers reverse spelling
      · simp [answers]
      · simp [answers]

/-- A reversing function undoes the first sanitizer that lists it. -/
theorem undoneBy?_ofEntries :
    (RuleSet.ofEntries sources sinks sanitizers).undoneBy? spelling =
      (sanitizers.filter fun entry =>
        ∃ reverse, reverse ∈ entry.2 ∧ Answers reverse spelling).head?.map
          fun entry => Text.lower entry.1.name :=
  look_foldl_keeping withSanitizer (fun tables => tables.2.find? (normalizeName spelling))
    (fun entry => ∃ reverse, reverse ∈ entry.2 ∧ Answers reverse spelling)
    (fun entry => Text.lower entry.1.name)
    (fun tables entry => find?_withReverses spelling entry.1.name tables.2 entry.2)
    sanitizers (∅, ∅)

/-- A source is of the group of the last entry with its key. -/
theorem category_ofEntries :
    ((RuleSet.ofEntries sources sinks sanitizers).sources.find?
        (.text (normalizeName spelling))).map SourceRule.category =
      (sources.filter fun source => normalizeName spelling = source.key).getLast?.map
        SourceEntry.category := by
  have each : forall table source,
      ((withSource table source).find? (.text (normalizeName spelling))).map SourceRule.category =
        if normalizeName spelling = source.key then some source.category
        else (table.find? (.text (normalizeName spelling))).map SourceRule.category := by
    intro table source
    rw [withSource, Table.find?_insert, apply_ite (Option.map SourceRule.category)]
    exact if_congr (by rw [Scalar.text.injEq]) rfl rfl
  have looked := look_foldl_replacing withSource
    (fun table => (table.find? (.text (normalizeName spelling))).map SourceRule.category)
    (fun source => normalizeName spelling = source.key) SourceEntry.category each sources ∅
  exact looked.trans (Option.or_none ..)

/-- A function is a source of input if the last entry for its key is one for functions. -/
theorem isInputFunction_ofEntries :
    (RuleSet.ofEntries sources sinks sanitizers).isInputFunction spelling = true ↔
      ∃ last, (sources.filter fun source => normalizeName spelling = source.key).getLast? =
        some last ∧ last.category = functionCategory := by
  have category := category_ofEntries sources sinks sanitizers spelling
  unfold RuleSet.isInputFunction
  cases found : (RuleSet.ofEntries sources sinks sanitizers).sources.find?
      (.text (normalizeName spelling)) with
  | none =>
      rw [found, Option.map_none, eq_comm, Option.map_eq_none_iff] at category
      simp [category]
  | some rule =>
      rw [found, Option.map_some, eq_comm, Option.map_eq_some_iff] at category
      obtain ⟨last, isLast, same⟩ := category
      simp [isLast, same]

/-- The last item that passes a test is a good one if some item is, after which only good
items pass. -/
theorem exists_getLast?_filter_iff {test good : α -> Prop} [DecidablePred test] {items : List α} :
    (∃ last, (items.filter fun item => test item).getLast? = some last ∧ good last) ↔
      ∃ before item after, items = before ++ item :: after ∧ test item ∧ good item ∧
        forall later, later ∈ after -> test later -> good later := by
  constructor
  · rintro ⟨last, isLast, isGood⟩
    rw [← List.head?_reverse, ← List.filter_reverse, List.head?_filter,
      List.find?_eq_some_iff_append] at isLast
    obtain ⟨passes, after, before, split, fails⟩ := isLast
    refine ⟨before.reverse, last, after.reverse, ?_, of_decide_eq_true passes, isGood, ?_⟩
    · rw [← List.reverse_reverse items, split]
      simp
    · intro later member passes
      have failed := fails later (List.mem_reverse.1 member)
      simp [passes] at failed
  · rintro ⟨before, item, after, rfl, passes, isGood, allGood⟩
    rw [List.filter_append, List.filter_cons_of_pos (by simpa using passes), List.getLast?_append,
      List.getLast?_cons]
    refine ⟨_, rfl, ?_⟩
    cases isLast : (after.filter fun item => test item).getLast? with
    | none => exact isGood
    | some last =>
        obtain ⟨member, passes⟩ := List.mem_filter.1 (List.mem_of_getLast? isLast)
        exact allGood last member (of_decide_eq_true passes)

/-- A function is a source of input if an entry for it answers, and no entry of another group
takes its key afterwards. -/
theorem isInputFunction_ofEntries_iff :
    (RuleSet.ofEntries sources sinks sanitizers).isInputFunction spelling = true ↔
      ∃ before source after, sources = before ++ source :: after ∧
        source.category = functionCategory ∧ Answers source.name spelling ∧
        forall later, later ∈ after -> later.category ≠ functionCategory ->
          later.name ≠ normalizeName spelling := by
  have answers : forall source : SourceEntry, source.category = functionCategory ->
      (normalizeName spelling = source.key ↔ Answers source.name spelling) := by
    intro source isFunction
    rw [SourceEntry.key, if_pos isFunction, normalizeName_eq_lower_iff]
  have free : forall source : SourceEntry,
      (normalizeName spelling = source.key -> source.category = functionCategory) ↔
        (source.category ≠ functionCategory -> source.name ≠ normalizeName spelling) := by
    intro source
    by_cases isFunction : source.category = functionCategory
    · simp [isFunction]
    · simp [isFunction, SourceEntry.key, eq_comm]
  rw [isInputFunction_ofEntries, exists_getLast?_filter_iff]
  simp only [free]
  refine exists_congr fun before => exists_congr fun source => exists_congr fun after =>
    and_congr_right fun _ => ?_
  constructor
  · rintro ⟨hit, isFunction, later⟩
    exact ⟨isFunction, (answers source isFunction).1 hit, later⟩
  · rintro ⟨isFunction, hit, later⟩
    exact ⟨(answers source isFunction).2 hit, isFunction, later⟩

end Lookups

/-- Well-typed rule files are loaded, and the rules answer to the spellings of their names,
except that a rule whose name is written fully qualified answers to none. Of the sinks and of
the sanitizers that answer the last one is given; a function is a source of input unless a
later entry of another group takes its key. -/
theorem rules_answer_to_names {sources sinks sanitizers : Document}
    (typed : WellTyped sources sinks sanitizers) :
    ∃ rules, RuleSet.ofContents sources sinks sanitizers = .ok rules ∧ forall spelling,
      (rules.isSink spelling = true ↔
        ∃ rule, rule ∈ sinkEntries sinks ∧ Answers rule.name spelling) ∧
      rules.sink? spelling =
        ((sinkEntries sinks).filter fun rule => Answers rule.name spelling).getLast? ∧
      (rules.isSanitizer spelling = true ↔
        ∃ entry, entry ∈ sanitizerEntries sanitizers ∧ Answers entry.1.name spelling) ∧
      rules.sanitizer? spelling = ((sanitizerEntries sanitizers).filter fun entry =>
        Answers entry.1.name spelling).getLast?.map Prod.fst ∧
      (rules.isReverse spelling = true ↔ ∃ entry, entry ∈ sanitizerEntries sanitizers ∧
        ∃ reverse, reverse ∈ entry.2 ∧ Answers reverse spelling) ∧
      (rules.isInputFunction spelling = true ↔
        ∃ before source after, sourceEntries sources = before ++ source :: after ∧
          source.category = functionCategory ∧ Answers source.name spelling ∧
          forall later, later ∈ after -> later.category ≠ functionCategory ->
            later.name ≠ normalizeName spelling) := by
  refine ⟨_, RuleSet.ofContents_eq typed, fun spelling => ?_⟩
  have sink := sink?_ofEntries (sourceEntries sources) (sinkEntries sinks)
    (sanitizerEntries sanitizers) spelling
  have sanitizer := sanitizer?_ofEntries (sourceEntries sources) (sinkEntries sinks)
    (sanitizerEntries sanitizers) spelling
  have undone := undoneBy?_ofEntries (sourceEntries sources) (sinkEntries sinks)
    (sanitizerEntries sanitizers) spelling
  refine ⟨?_, sink, ?_, sanitizer, ?_, isInputFunction_ofEntries_iff ..⟩
  · rw [RuleSet.isSink, sink]
    simp
  · rw [RuleSet.isSanitizer, sanitizer]
    simp
  · rw [RuleSet.isReverse, undone]
    simp

/-- The last of two sinks of one name is found under a fully qualified spelling. -/
theorem rules_answer_to_names_twice :
    let sources : Document := .mapping [(functionCategory, .list [.text "getenv"])]
    let sinks : Document := .mapping [
      (.text "XSS", .list [.object [("name", .text "Echo")]]),
      (.text "LOG", .list [.object [("name", .text "ECHO")]])]
    let sanitizers : Document := .mapping [
      (.text "XSS", .list [
        .object [("name", .text "clean"), ("reversed_by", .list [.text "Dirty"])]])]
    ∃ rules, RuleSet.ofContents sources sinks sanitizers = .ok rules ∧
      (rules.sink? "\\\\eCHO").map SinkRule.vulnerability = some (.text "LOG") ∧
      rules.isSanitizer "Clean" = true ∧ rules.isReverse "\\dirty" = true ∧
      rules.isInputFunction "GetEnv" = true := by
  intro sources sinks sanitizers
  have typed : WellTyped sources sinks sanitizers :=
    ⟨⟨_, rfl⟩, ⟨_, rfl⟩, ⟨_, rfl⟩, by decide +kernel, by decide +kernel, by decide +kernel⟩
  obtain ⟨rules, loaded, answers⟩ := rules_answer_to_names typed
  refine ⟨rules, loaded, ?_, ?_, ?_, ?_⟩
  · rw [(answers _).2.1]
    decide +kernel
  · exact (answers _).2.2.1.2 ⟨_, List.mem_cons_self .., by decide +kernel⟩
  · exact (answers _).2.2.2.2.1.2
      ⟨_, List.mem_cons_self .., _, List.mem_cons_self .., by decide +kernel⟩
  · exact (answers _).2.2.2.2.2.2 ⟨[], _, [], rfl, rfl, by decide +kernel, nofun⟩

/-- A rule whose name is written fully qualified does not answer to that name. -/
theorem sink_misses_qualified_name :
    let sinks : Document := .mapping [
      (.text "XSS", .list [.object [("name", .text "\\App\\render")]])]
    WellTyped ∅ sinks ∅ ∧ ∃ rules, RuleSet.ofContents ∅ sinks ∅ = .ok rules ∧
      ∃ rule, rule ∈ sinkEntries sinks ∧ rules.isSink rule.name = false ∧
        rules.sink? rule.name = none := by
  intro sinks
  have typed : WellTyped ∅ sinks ∅ :=
    ⟨⟨_, rfl⟩, ⟨_, rfl⟩, ⟨_, rfl⟩, by decide +kernel, by decide +kernel, by decide +kernel⟩
  refine ⟨typed, _, RuleSet.ofContents_eq typed, _, List.mem_cons_self .., ?_, ?_⟩
  · decide +kernel
  · rfl

end PhpTaint.Rules
