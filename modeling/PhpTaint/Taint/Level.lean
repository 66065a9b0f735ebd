import PhpTaint.Fault

/-!
# Taint levels

The levels form a small total order, and alternative flows are joined by their
maximum. There is no level for a value that is known to be safe: safety is the
absence of a flow from untrusted input, together with the sanitizers recorded
along the flows that exist.
-/

namespace PhpTaint

/-- What is known about the origin of a value. -/
inductive Level where
  /-- Nothing has been observed. -/
  | unassigned
  /-- The value could not be resolved. -/
  | unknown
  /-- The value derives from untrusted input. -/
  | tainted
  deriving DecidableEq, Repr, Inhabited

namespace Level

/-- The place of a level in the order. -/
def rank : Level -> Nat
  | .unassigned => 0
  | .unknown => 1
  | .tainted => 2

/-- The least level that is at least both. -/
def join (left right : Level) : Level := if left.rank <= right.rank then right else left

/-- The join of several levels; nothing has been observed of none. -/
def joinAll (levels : List Level) : Level := levels.foldl join .unassigned

/-- The level of a numeric code. -/
def ofCode? (code : Int) : Option Level :=
  if code = 0 then some .unassigned
  else if code = 1 then some .unknown
  else if code = 2 then some .tainted
  else none

/-- The greatest of several codes, zero for none. -/
def greatestCode : List Int -> Int
  | [] => 0
  | code :: rest => rest.foldl max code

/-- The join of levels given by their codes: the greatest code has to denote a
level, the others do not. -/
def joinCodes (codes : List Int) : Except Fault Level :=
  let greatest := greatestCode codes
  match ofCode? greatest with
  | some level => .ok level
  | none => .error (.invalidLevel greatest)

/-- The word for a level. -/
def label : Level -> String
  | .unassigned => "UNASSIGNED"
  | .unknown => "UNKNOWN"
  | .tainted => "TAINTED"

end Level

end PhpTaint
