/-
UTF-8, read one byte at a time. Between two bytes the reader is either at
the boundary of a character or inside one, and then knows how many bytes
are still to come, the bits read so far, and the range that the next byte
must lie in. That range is what excludes overlong forms, surrogates and
numbers beyond the last code point: each shows in the second byte of its
sequence, so a wrong sequence is known at its first wrong byte.

Since the state carries everything, reading a text in pieces is reading
it whole: the state after one piece is the start of the next.
-/

namespace LayeredLexer.Utf8

/-- Where a reader stands between two bytes. -/
inductive State where
  /-- At the boundary of a character. -/
  | boundary
  /-- Inside a character: `missing` bytes are to come, the next one from
  `low` to `high`, and `bits` is the value read so far. -/
  | inside (missing bits low high : Nat)
deriving DecidableEq, Repr

/-- What one byte does. -/
inductive Step where
  /-- The byte was taken, and a character may be complete with it. -/
  | taken (character : Option Char) (next : State)
  /-- No character continues or begins with this byte. -/
  | refused
deriving Repr

/-- The first byte of a character. -/
def first (byte : Nat) : Step :=
  if byte < 0x80 then .taken (some (Char.ofNat byte)) .boundary
  else if byte < 0xC2 then .refused
  else if byte < 0xE0 then .taken none (.inside 1 (byte % 0x20) 0x80 0xBF)
  else if byte < 0xF0 then
    let low := if byte = 0xE0 then 0xA0 else 0x80
    let high := if byte = 0xED then 0x9F else 0xBF
    .taken none (.inside 2 (byte % 0x10) low high)
  else if byte < 0xF5 then
    let low := if byte = 0xF0 then 0x90 else 0x80
    let high := if byte = 0xF4 then 0x8F else 0xBF
    .taken none (.inside 3 (byte % 0x08) low high)
  else .refused

/-- The next byte in any state. -/
def State.step : State → Nat → Step
  | .boundary, byte => first byte
  | .inside missing bits low high, byte =>
    if byte < low || high < byte then .refused
    else
      let bits := bits * 0x40 + byte % 0x40
      if missing ≤ 1 then .taken (some (Char.ofNat bits)) .boundary
      else .taken none (.inside (missing - 1) bits 0x80 0xBF)

/-- The characters that a run of bytes completes, and the state after
them; no state if a byte was refused. What follows a refused byte is not
looked at. -/
def State.read (state : State) : List UInt8 → List Char × Option State
  | [] => ([], some state)
  | byte :: rest =>
    match state.step byte.toNat with
    | .refused => ([], none)
    | .taken none next => next.read rest
    | .taken (some c) next =>
      let (characters, last) := next.read rest
      (c :: characters, last)

/-- Each character takes at least one byte. -/
theorem State.length_read (state : State) (bytes : List UInt8) :
    (state.read bytes).1.length ≤ bytes.length := by
  induction bytes generalizing state with
  | nil => simp [read]
  | cons byte rest ih =>
    unfold read
    split
    · simp
    · next s _ => have := ih s; simp only [List.length_cons]; omega
    · next s _ => have := ih s; simp only [List.length_cons]; omega

end LayeredLexer.Utf8
