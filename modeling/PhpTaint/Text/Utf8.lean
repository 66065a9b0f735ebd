/-!
# Lenient decoding of UTF-8

Sources are bytes, and neither a file nor the span of a syntax node needs to be
well-formed. Decoding therefore never fails: it reads one byte at a time, and a
maximal sequence that begins a character but does not complete it counts as one
malformation. A byte that cannot continue the pending sequence is read again as
the first byte of the next one, so no byte is lost.

What a malformation contributes to the text is a parameter. The text of a node
shows the replacement character; the text of a file drops the bytes.
-/

namespace PhpTaint.Text.Utf8

/-- A character of which some bytes have been read: how many are missing, the
bounds for the next one, and the bits collected so far. -/
structure Pending where
  /-- How many continuation bytes are still missing. -/
  missing : Nat
  /-- The least admissible next byte. -/
  lower : Nat
  /-- The greatest admissible next byte. -/
  upper : Nat
  /-- The code point bits read so far. -/
  bits : Nat

/-- What a byte means where a character may begin. -/
inductive Lead where
  /-- The byte is a whole character. -/
  | whole (char : Char)
  /-- The byte opens a character of several bytes. -/
  | opening (pending : Pending)
  /-- No character begins with this byte. -/
  | invalid

/-- Classify a byte in initial position. The bounds on the second byte exclude
overlong forms, surrogates and values beyond the last code point. -/
def classify (byte : UInt8) : Lead :=
  let value := byte.toNat
  if value < 0x80 then .whole (Char.ofNat value)
  else if value < 0xC2 then .invalid
  else if value < 0xE0 then .opening ⟨1, 0x80, 0xBF, value - 0xC0⟩
  else if value < 0xF0 then
    .opening ⟨2, if value = 0xE0 then 0xA0 else 0x80, if value = 0xED then 0x9F else 0xBF,
      value - 0xE0⟩
  else if value < 0xF5 then
    .opening ⟨3, if value = 0xF0 then 0x90 else 0x80, if value = 0xF4 then 0x8F else 0xBF,
      value - 0xF0⟩
  else .invalid

/-- Decode from a state in which `pending` may be half a character. -/
def decodeFrom (malformed : List Char) : Option Pending -> List UInt8 -> List Char
  | none, [] => []
  | some _, [] => malformed
  | none, byte :: rest =>
      match classify byte with
      | .whole char => char :: decodeFrom malformed none rest
      | .opening pending => decodeFrom malformed (some pending) rest
      | .invalid => malformed ++ decodeFrom malformed none rest
  | some pending, byte :: rest =>
      if pending.lower <= byte.toNat && byte.toNat <= pending.upper then
        let bits := pending.bits * 64 + (byte.toNat - 0x80)
        if pending.missing <= 1 then Char.ofNat bits :: decodeFrom malformed none rest
        else decodeFrom malformed (some ⟨pending.missing - 1, 0x80, 0xBF, bits⟩) rest
      else
        malformed ++
          match classify byte with
          | .whole char => char :: decodeFrom malformed none rest
          | .opening next => decodeFrom malformed (some next) rest
          | .invalid => malformed ++ decodeFrom malformed none rest

/-- The text of the bytes, with one replacement character for every
malformation. -/
def decodeReplacing (bytes : List UInt8) : String :=
  String.ofList (decodeFrom ['\uFFFD'] none bytes)

/-- The text of the bytes without the malformed ones. -/
def decodeDropping (bytes : List UInt8) : String :=
  String.ofList (decodeFrom [] none bytes)

end PhpTaint.Text.Utf8
