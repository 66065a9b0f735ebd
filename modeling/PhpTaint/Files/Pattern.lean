/-!
# Name patterns

A pattern stands for the names that it matches from end to end. `*` stands for
any run of characters, `?` for one character, and a bracket for one character of
a class. A class lists characters and ranges; after an exclamation mark it
stands for every other character. A bracket that is never closed is an ordinary
character, and a range whose ends are in the wrong order is empty.
-/

namespace PhpTaint.Files

/-- A class of characters, given by ranges. -/
structure CharClass where
  /-- Whether the class stands for the characters outside the ranges. -/
  negated : Bool
  /-- The ranges, ends included. -/
  ranges : List (Char × Char)
  deriving DecidableEq, Repr

/-- Whether a class contains a character. -/
def CharClass.contains (charClass : CharClass) (char : Char) : Bool :=
  (charClass.ranges.any fun range => range.1 <= char && char <= range.2) != charClass.negated

/-- A piece of a pattern. -/
inductive Piece where
  /-- Exactly this character. -/
  | exactly (char : Char)
  /-- Any one character. -/
  | anyChar
  /-- One character of a class. -/
  | oneOf (charClass : CharClass)
  /-- Any run of characters. -/
  | anyRun
  deriving DecidableEq, Repr

/-- The inside of a bracket and what follows it. A closing bracket at the very
beginning belongs to the inside. -/
def splitBracket (chars : List Char) : Option (List Char × List Char) :=
  let mark := chars.takeWhile (· == '!') |>.take 1
  let afterMark := chars.drop mark.length
  let first := afterMark.takeWhile (· == ']') |>.take 1
  let body := afterMark.drop first.length
  let inside := body.takeWhile (· != ']')
  match body.drop inside.length with
  | [] => none
  | _ :: rest => some (mark ++ first ++ inside, rest)

/-- The rest after a bracket is shorter than the text from the bracket on. -/
theorem length_splitBracket_lt {chars inside rest : List Char}
    (split : splitBracket chars = some (inside, rest)) : rest.length < chars.length := by
  unfold splitBracket at split
  simp only at split
  split at split
  · cases split
  · rename_i closing tail found
    injection split with pair
    injection pair with _ equal
    subst equal
    have := congrArg List.length found
    simp only [List.length_drop, List.length_cons] at this
    omega

/-- The place of the first hyphen that can divide a range, not before `start`. -/
def hyphenFrom (start : Nat) (chars : List Char) : Option Nat :=
  ((chars.drop start).findIdx? (· == '-')).map (· + start)

/-- Divide the inside of a bracket at the hyphens of its ranges. A hyphen at the
end divides nothing. -/
def rangeChunks (start : Nat) (chars : List Char) : List (List Char) :=
  match hyphenFrom start chars with
  | none => [chars]
  | some place =>
      if _last : chars.length <= place + 1 then [chars.take place ++ ['-']]
      else chars.take place :: rangeChunks 2 (chars.drop (place + 1))
termination_by chars.length
decreasing_by simp only [List.length_drop]; omega

/-- Remove the ranges whose ends are in the wrong order, together with their
ends, from the right to the left. -/
def dropEmptyRanges : List (List Char) -> List (List Char)
  | [] => []
  | chunk :: rest =>
      match chunk.getLast?, dropEmptyRanges rest with
      | some low, (high :: others) :: more =>
          if high < low then (chunk.dropLast ++ others) :: more
          else chunk :: (high :: others) :: more
      | _, kept => chunk :: kept

/-- The range that holds one character. -/
def singleRange (char : Char) : Char × Char := (char, char)

/-- The ranges between adjacent chunks, and the single characters. A hyphen
with nothing before it stands for itself. -/
def rangesOf (pending : List Char) : List (List Char) -> List (Char × Char)
  | [] => pending.map singleRange
  | next :: more =>
      match pending.getLast?, next with
      | some low, high :: others =>
          pending.dropLast.map singleRange ++ (low, high) :: rangesOf others more
      | _, chars => pending.map singleRange ++ singleRange '-' :: rangesOf chars more

/-- The class that chunks denote. -/
def classOfChunks : List (List Char) -> CharClass
  | [] => ⟨false, []⟩
  | ('!' :: first) :: rest => ⟨true, rangesOf first rest⟩
  | first :: rest => ⟨false, rangesOf first rest⟩

/-- The class that the inside of a bracket denotes. -/
def classOf (inside : List Char) : CharClass :=
  let start := if inside.head? == some '!' then 2 else 1
  classOfChunks (dropEmptyRanges (rangeChunks start inside))

/-- The pieces of a pattern. -/
def piecesOf (pattern : List Char) : List Piece :=
  match pattern with
  | [] => []
  | char :: rest =>
      if char = '*' then .anyRun :: piecesOf rest
      else if char = '?' then .anyChar :: piecesOf rest
      else if char = '[' then
        match _split : splitBracket rest with
        | some (inside, after) => .oneOf (classOf inside) :: piecesOf after
        | none => .exactly char :: piecesOf rest
      else .exactly char :: piecesOf rest
termination_by pattern.length
decreasing_by
  all_goals simp only [List.length_cons]
  all_goals try omega
  have := length_splitBracket_lt _split
  omega

/-- Whether a piece that stands for one character accepts it. -/
def Piece.accepts (char : Char) : Piece -> Bool
  | .exactly expected => char == expected
  | .anyChar => true
  | .oneOf charClass => charClass.contains char
  | .anyRun => false

/-- Whether one of the answers in a row, from each place on, is positive. -/
def anyLater (row : List Bool) : List Bool :=
  row.foldr (fun here later => (here || later.headD false) :: later) []

/-- Whether pieces match the rests of some characters from end to end: one
answer for each rest, the longest rest first. Each piece is taken once for all
rests, so that runs do not multiply the work. -/
def matchRests : List Piece -> List Char -> List Bool
  | [], chars => List.replicate chars.length false ++ [true]
  | piece :: pieces, chars =>
      if piece = .anyRun then anyLater (matchRests pieces chars)
      else
        List.zipWith (fun char after => piece.accepts char && after) chars
          ((matchRests pieces chars).drop 1) ++ [false]

/-- Whether pieces match some characters from end to end. -/
def matchesPieces (pieces : List Piece) (chars : List Char) : Bool :=
  (matchRests pieces chars).headD false

/-- The answers from each place on, one place at a time. -/
theorem anyLater_cons (here : Bool) (row : List Bool) :
    anyLater (here :: row) = (here || (anyLater row).headD false) :: anyLater row := rfl

/-- There is always an answer for the empty rest. -/
theorem matchRests_ne_nil (pieces : List Piece) (chars : List Char) :
    matchRests pieces chars ≠ [] := by
  induction pieces with
  | nil => simp [matchRests]
  | cons piece pieces inductionHypothesis =>
      by_cases run : piece = .anyRun
      · obtain ⟨here, later, row⟩ := List.exists_cons_of_ne_nil inductionHypothesis
        simp [matchRests, run, row, anyLater_cons]
      · simp [matchRests, run]

/-- The answers for some characters are one answer for all of them and those for
the characters after the first. -/
theorem matchRests_cons (pieces : List Piece) (char : Char) (rest : List Char) :
    matchRests pieces (char :: rest) =
      matchesPieces pieces (char :: rest) :: matchRests pieces rest := by
  have shifted : ∃ here, matchRests pieces (char :: rest) = here :: matchRests pieces rest := by
    induction pieces with
    | nil => exact ⟨false, rfl⟩
    | cons piece pieces inductionHypothesis =>
        obtain ⟨here, row⟩ := inductionHypothesis
        by_cases run : piece = .anyRun
        · exact ⟨here || (anyLater (matchRests pieces rest)).headD false, by
            simp [matchRests, run, row, anyLater_cons]⟩
        · obtain ⟨after, later, tail⟩ := List.exists_cons_of_ne_nil (matchRests_ne_nil pieces rest)
          exact ⟨piece.accepts char && after, by simp [matchRests, run, row, tail]⟩
  obtain ⟨here, row⟩ := shifted
  rw [matchesPieces, row]
  rfl

/-- No piece matches only the empty text. -/
theorem matchesPieces_nil (chars : List Char) : matchesPieces [] chars = chars.isEmpty := by
  cases chars <;> rfl

/-- A run matches nothing, or the first character and then a run again. -/
theorem matchesPieces_anyRun (pieces : List Piece) (char : Char) (rest : List Char) :
    matchesPieces (.anyRun :: pieces) (char :: rest) =
      (matchesPieces pieces (char :: rest) || matchesPieces (.anyRun :: pieces) rest) := by
  have row := matchRests_cons pieces char rest
  have run (chars : List Char) :
      matchRests (.anyRun :: pieces) chars = anyLater (matchRests pieces chars) := if_pos rfl
  rw [matchesPieces, run, row, anyLater_cons, ← run]
  rfl

/-- Any other piece matches exactly the first character. -/
theorem matchesPieces_single {piece : Piece} (single : piece ≠ .anyRun) (pieces : List Piece)
    (char : Char) (rest : List Char) :
    matchesPieces (piece :: pieces) (char :: rest) =
      (piece.accepts char && matchesPieces pieces rest) := by
  obtain ⟨after, later, tail⟩ := List.exists_cons_of_ne_nil (matchRests_ne_nil pieces rest)
  have row := matchRests_cons pieces char rest
  rw [matchesPieces, matchRests, if_neg single, row, List.drop_one, List.tail_cons, matchesPieces,
    tail]
  rfl

/-- Whether a name matches a pattern. -/
def matchesPattern (pattern name : String) : Bool :=
  matchesPieces (piecesOf pattern.toList) name.toList

/-- Whether a text is a pattern rather than a plain name. -/
def isPattern (text : String) : Bool :=
  text.toList.any fun char => char == '*' || char == '?' || char == '['

/-- Whether a name is hidden: it begins with a dot. -/
def isHidden (name : String) : Bool := name.toList.head? == some '.'

end PhpTaint.Files
