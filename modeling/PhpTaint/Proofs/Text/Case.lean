import PhpTaint.Rules.Basic

/-!
# Lowering

A small letter is no capital of any run, so a text that was lowered stays as it is
when it is lowered again. The same holds of the spelling under which functions are
matched: the rules may be asked for a name or for its normal spelling.

The small form of a capital sigma depends on its neighbours, but a separator is
neither cased nor case-ignorable and ends every search for them. Hence the segments
of a qualified name are lowered each on its own.
-/

namespace PhpTaint.Text

/-- No small letter beyond ASCII comes before the letters of ASCII. -/
theorem small_of_caseRuns : (caseRuns.all fun run => decide (93 <= run.small)) = true := by decide

/-- In ASCII only the separator is lowered to it. -/
theorem toLower_eq_backslash :
    forall code, code < 128 -> (Char.ofNat code).toLower = '\\' -> code = 92 := by decide

/-- A valid code is that of its character. -/
theorem toNat_ofNat_of_isValidChar {code : Nat} (valid : code.isValidChar) :
    (Char.ofNat code).toNat = code := by
  rw [Char.ofNat, dif_pos valid]
  rfl

/-- Lowering makes no separator out of another character. -/
theorem lowerChar_eq_backslash {char : Char} (lowered : lowerChar char = '\\') : char = '\\' := by
  unfold lowerChar at lowered
  split at lowered
  · rename_i ascii
    rw [← Char.ofNat_toNat char] at lowered
    rw [← Char.ofNat_toNat char, toLower_eq_backslash char.toNat ascii lowered]
  · split at lowered
    · rename_i run found
      have low := of_decide_eq_true
        (List.all_eq_true.1 small_of_caseRuns run (List.mem_of_find?_eq_some found))
      by_cases valid : (run.small + (char.toNat - run.first)).isValidChar
      · have code : run.small + (char.toNat - run.first) = 92 :=
          (toNat_ofNat_of_isValidChar valid).symm.trans (congrArg Char.toNat lowered)
        omega
      · rw [Char.ofNat, dif_neg valid] at lowered
        cases lowered
    · exact lowered

/-- No small letter of the first run is a capital of the second: the two lie apart,
or between each other. -/
def CaseRun.apart (run other : CaseRun) : Bool :=
  run.small + (run.last - run.first) < other.first || other.last < run.small ||
    other.stride == 2 && (run.stride == 2 || run.first == run.last) &&
      (run.small + other.first) % 2 == 1

/-- A small letter of one run is not covered by a run that lies apart. -/
theorem CaseRun.not_covers {run other : CaseRun} (apart : run.apart other = true) {code : Nat}
    (capital : run.covers code = true) :
    other.covers (run.small + (code - run.first)) = false := by
  simp only [CaseRun.apart, CaseRun.covers, Bool.or_eq_true, Bool.and_eq_true, decide_eq_true_eq,
    beq_iff_eq] at apart capital
  obtain ⟨⟨low, high⟩, strides⟩ := capital
  rw [Bool.eq_false_iff]
  intro covered
  simp only [CaseRun.covers, Bool.and_eq_true, decide_eq_true_eq, beq_iff_eq] at covered
  obtain ⟨⟨above, below⟩, strided⟩ := covered
  rcases apart with (before | behind) | ⟨⟨two, even⟩, odd⟩
  · omega
  · omega
  · rw [two] at strided
    rcases even with steps | single
    · rw [steps] at strides
      omega
    · omega

/-- Any two runs of capitals lie apart. -/
theorem apart_of_caseRuns :
    (caseRuns.all fun run => caseRuns.all fun other => run.apart other) = true := by
  decide +kernel

/-- In ASCII lowering once is enough. -/
theorem toLower_toLower :
    forall code, code < 128 ->
      (Char.ofNat code).toLower.toNat < 128 ∧
        (Char.ofNat code).toLower.toLower = (Char.ofNat code).toLower := by decide

/-- Beyond the capitals of ASCII lowering changes nothing. -/
theorem toLower_of_le : forall code, code < 128 -> 93 <= code ->
    (Char.ofNat code).toLower = Char.ofNat code := by decide

/-- A small letter beyond the runs of capitals stays as it is. -/
theorem lowerChar_small {run : CaseRun} (listed : run ∈ caseRuns) {code : Nat}
    (capital : run.covers code = true) :
    lowerChar (Char.ofNat (run.small + (code - run.first))) =
      Char.ofNat (run.small + (code - run.first)) := by
  have low := of_decide_eq_true (List.all_eq_true.1 small_of_caseRuns run listed)
  by_cases valid : (run.small + (code - run.first)).isValidChar
  · have image : (Char.ofNat (run.small + (code - run.first))).toNat =
        run.small + (code - run.first) := toNat_ofNat_of_isValidChar valid
    have uncovered : caseRuns.find? (fun other =>
        other.covers (run.small + (code - run.first))) = none := by
      rw [List.find?_eq_none]
      intro other member covered
      have apart := List.all_eq_true.1
        (List.all_eq_true.1 apart_of_caseRuns run listed) other member
      rw [CaseRun.not_covers apart capital] at covered
      cases covered
    unfold lowerChar
    rw [image, uncovered]
    split
    · rename_i ascii
      exact toLower_of_le _ ascii (by omega)
    · rfl
  · rw [Char.ofNat, dif_neg valid]
    rfl

/-- Lowering once is enough. -/
theorem lowerChar_lowerChar (char : Char) : lowerChar (lowerChar char) = lowerChar char := by
  by_cases ascii : char.toNat < 128
  · have lowered : lowerChar char = char.toLower := if_pos ascii
    obtain ⟨low, fixed⟩ := toLower_toLower char.toNat ascii
    rw [Char.ofNat_toNat] at low fixed
    rw [lowered, lowerChar, if_pos low, fixed]
  · cases found : caseRuns.find? fun run => run.covers char.toNat with
    | none =>
        have unchanged : lowerChar char = char := by rw [lowerChar, if_neg ascii, found]
        rw [unchanged, unchanged]
    | some run =>
        have lowered : lowerChar char = Char.ofNat (run.small + (char.toNat - run.first)) := by
          rw [lowerChar, if_neg ascii, found]
        have capital := List.find?_some found
        rw [lowered]
        exact lowerChar_small (List.mem_of_find?_eq_some found) capital

section Between

variable {before after chars : List Char} {char small : Char}

/-- What a character is lowered to stays as it is, wherever the character stands. -/
theorem lowerChar_of_mem_lowerBetween (member : small ∈ lowerBetween before char after) :
    lowerChar small = small := by
  unfold lowerBetween at member
  split at member
  · split at member <;> obtain rfl := List.mem_singleton.1 member <;> decide +kernel
  · split at member
    · rcases List.mem_cons.1 member with rfl | member
      · decide
      · obtain rfl := List.mem_singleton.1 member
        decide +kernel
    · obtain rfl := List.mem_singleton.1 member
      exact lowerChar_lowerChar char

/-- The characters of a lowered text stay as they are. -/
theorem lowerChar_of_mem_lowerAfter (member : small ∈ lowerAfter before chars) :
    lowerChar small = small := by
  induction chars generalizing before with
  | nil => cases member
  | cons char rest inductionHypothesis =>
      rcases List.mem_append.1 member with here | later
      · exact lowerChar_of_mem_lowerBetween here
      · exact inductionHypothesis later

/-- A character that is its own small letter is no capital with a rule of its own. -/
theorem lowerBetween_of_small (small : lowerChar char = char) :
    lowerBetween before char after = [char] := by
  have sigma : char ≠ 'Σ' := by
    rintro rfl
    exact absurd small (by decide +kernel)
  have dotted : char ≠ 'İ' := by
    rintro rfl
    exact absurd small (by decide +kernel)
  rw [lowerBetween, if_neg sigma, if_neg dotted, small]

/-- A text of small letters stays as it is. -/
theorem lowerAfter_of_small (small : forall char, char ∈ chars -> lowerChar char = char) :
    lowerAfter before chars = chars := by
  induction chars generalizing before with
  | nil => rfl
  | cons char rest inductionHypothesis =>
      rw [lowerAfter, lowerBetween_of_small (small char List.mem_cons_self),
        inductionHypothesis fun other member => small other (List.mem_cons_of_mem _ member)]
      rfl

/-- A text in lower case is its own lower case. -/
theorem lower_lower (text : String) : lower (lower text) = lower text := by
  apply String.toList_injective
  rw [toList_lower, toList_lower]
  exact lowerAfter_of_small fun _ member => lowerChar_of_mem_lowerAfter member

end Between

section Separators

variable {before after chars later : List Char} {char : Char}

/-- Lowering leaves a separator as it is. -/
theorem lowerBetween_backslash : lowerBetween before '\\' after = ['\\'] :=
  lowerBetween_of_small (by decide)

/-- Only a separator is lowered to one. -/
theorem eq_backslash_of_mem_lowerBetween (member : '\\' ∈ lowerBetween before char after) :
    char = '\\' := by
  unfold lowerBetween at member
  split at member
  · split at member <;> cases List.mem_singleton.1 member
  · split at member
    · rcases List.mem_cons.1 member with same | member
      · cases same
      · cases List.mem_singleton.1 member
    · exact lowerChar_eq_backslash (List.mem_singleton.1 member).symm

/-- The separators of a lowered text come from the text. -/
theorem backslash_mem_of_mem_lowerAfter (member : '\\' ∈ lowerAfter before chars) :
    '\\' ∈ chars := by
  induction chars generalizing before with
  | nil => cases member
  | cons char rest inductionHypothesis =>
      rcases List.mem_append.1 member with here | later
      · exact List.mem_cons.2 (.inl (eq_backslash_of_mem_lowerBetween here).symm)
      · exact List.mem_cons_of_mem _ (inductionHypothesis later)

/-- Lowering drops no character. -/
theorem lowerBetween_ne_nil : lowerBetween before char after ≠ [] := by
  unfold lowerBetween
  split
  · exact List.cons_ne_nil _ _
  · split <;> exact List.cons_ne_nil _ _

/-- Lowering leaves separators at the front where they are. -/
theorem head?_lower_iff {text : String} :
    (lower text).toList.head? = some '\\' ↔ text.toList.head? = some '\\' := by
  rw [toList_lower, lowerChars]
  cases text.toList with
  | nil => rfl
  | cons char rest =>
      have first : (lowerAfter [] (char :: rest)).head? = (lowerBetween [] char rest).head? := by
        rw [lowerAfter, List.head?_append, Option.or_of_isSome]
        exact List.isSome_head?.2 lowerBetween_ne_nil
      rw [first, List.head?_cons, Option.some.injEq]
      constructor
      · intro lowered
        exact eq_backslash_of_mem_lowerBetween (List.mem_of_head? lowered)
      · rintro rfl
        rw [lowerBetween_backslash]
        rfl

/-- The search for a cased letter goes no further than a separator. -/
theorem meetsCased_append_backslash :
    meetsCased (chars ++ '\\' :: later) = meetsCased chars := by
  unfold meetsCased
  rw [List.find?_append]
  cases chars.find? fun char => !isCaseIgnorable char with
  | some char => rfl
  | none =>
      have stops : ('\\' :: later).find? (fun char => !isCaseIgnorable char) = some '\\' :=
        List.find?_cons_of_pos (by decide +kernel)
      rw [Option.none_or, stops]
      decide +kernel

/-- Of its neighbours, a character's lower case depends only on the nearest letters. -/
theorem lowerBetween_congr {behind ahead : List Char}
    (backward : meetsCased behind = meetsCased before)
    (forward : meetsCased ahead = meetsCased after) :
    lowerBetween behind char ahead = lowerBetween before char after := by
  rw [lowerBetween, lowerBetween, backward, forward]

/-- What stands before a separator has no part in the lowering of what follows it. -/
theorem lowerAfter_append_backslash {beyond : List Char} :
    lowerAfter (before ++ '\\' :: beyond) chars = lowerAfter before chars := by
  induction chars generalizing before with
  | nil => rfl
  | cons char rest inductionHypothesis =>
      rw [lowerAfter, lowerAfter, lowerBetween_congr meetsCased_append_backslash rfl,
        ← List.cons_append, inductionHypothesis]

/-- A text is lowered up to a separator as if it ended there, and afresh behind it. -/
theorem lowerAfter_backslash_between :
    lowerAfter before (chars ++ '\\' :: later) =
      lowerAfter before chars ++ '\\' :: lowerChars later := by
  induction chars generalizing before with
  | nil =>
      have apart : lowerAfter ([] ++ '\\' :: before) later = lowerAfter [] later :=
        lowerAfter_append_backslash
      show lowerBetween before '\\' later ++ lowerAfter ('\\' :: before) later = _
      rw [lowerBetween_backslash]
      exact congrArg (List.cons _) apart
  | cons char rest inductionHypothesis =>
      rw [List.cons_append, lowerAfter, lowerAfter,
        lowerBetween_congr rfl meetsCased_append_backslash, inductionHypothesis,
        List.append_assoc]

/-- The two sides of a separator are lowered each on its own. -/
theorem lowerChars_append_backslash (chars later : List Char) :
    lowerChars (chars ++ '\\' :: later) = lowerChars chars ++ '\\' :: lowerChars later :=
  lowerAfter_backslash_between

end Separators

end PhpTaint.Text

namespace PhpTaint.Rules

/-- A normal spelling is not a fully qualified one. -/
theorem head?_normalizeName (name : String) : (normalizeName name).toList.head? ≠ some '\\' := by
  intro qualified
  have first := Text.head?_lower_iff.1 qualified
  have other := List.head?_dropWhile_not (· == '\\') name.toList
  rw [Text.dropLeading, String.toList_ofList] at first
  rw [first] at other
  exact absurd other (by decide)

/-- A name without separators in front has none to drop. -/
theorem dropWhile_eq_self {chars : List Char} (plain : chars.head? ≠ some '\\') :
    chars.dropWhile (· == '\\') = chars := by
  cases chars with
  | nil => rfl
  | cons char rest =>
      exact List.dropWhile_cons_of_neg fun same => plain (congrArg some (beq_iff_eq.1 same))

/-- The normal spelling of a name that is not fully qualified. -/
theorem normalizeName_eq_lower {name : String} (plain : name.toList.head? ≠ some '\\') :
    normalizeName name = Text.lower name := by
  rw [normalizeName, Text.dropLeading, dropWhile_eq_self plain, String.ofList_toList]

/-- A normal spelling is its own normal spelling. -/
theorem normalizeName_normalizeName (name : String) :
    normalizeName (normalizeName name) = normalizeName name := by
  rw [normalizeName_eq_lower (head?_normalizeName name)]
  exact Text.lower_lower _

end PhpTaint.Rules
