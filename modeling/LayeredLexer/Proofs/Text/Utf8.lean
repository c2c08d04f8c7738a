/-
The reader of UTF-8 against the encoding. Read from the boundary of a
character, bytes give the characters of the longest text at their front
(`longestText_iff`); the reader ends at a boundary exactly if all of them
are a text (`isText_iff`), and refuses a byte exactly if no bytes behind
it could make them one (`live_iff`).

# Both directions

The bytes of a character lie in ranges that depend on its number of bytes
(`Two`, `Three`, `Four`); bytes in these ranges are read as one character
(`read_two` and so on), and it is encoded by them (`encodeChar_of_two` and
so on). So what is encoded is read back. The other direction asks what
stands at the front of any bytes: an encoded character, or bytes that
complete none (`front_cases`).

A character that is begun can always be completed, because the range of
the next byte is never empty (`Open.exists_rest`).
-/
import LayeredLexer.Text.Utf8

namespace LayeredLexer.Utf8

/-- The bytes of a text. -/
def encode (cs : List Char) : List UInt8 := cs.flatMap String.utf8EncodeChar

/-- All of the bytes are a text. -/
def IsText (bytes : List UInt8) : Prop := ∃ cs, encode cs = bytes

/-- None of the bytes is wrong yet: they can be completed to a text. -/
def Live (bytes : List UInt8) : Prop := ∃ more, IsText (bytes ++ more)

/-- The characters of the longest text at the front of the bytes. -/
structure LongestText (bytes : List UInt8) (cs : List Char) : Prop where
  starts : encode cs <+: bytes
  longest : ∀ other, encode other <+: bytes → (encode other).length ≤ (encode cs).length

theorem encode_cons (c : Char) (cs : List Char) :
    encode (c :: cs) = String.utf8EncodeChar c ++ encode cs := rfl

theorem encode_append (cs more : List Char) :
    encode (cs ++ more) = encode cs ++ encode more := List.flatMap_append

-- ============================================================== one byte

section Step

variable {byte missing bits low high : Nat}

/-- What a byte may be at a boundary: a character of its own, no lead, or
the lead of two, three or four bytes. -/
theorem lead_cases (byte : Nat) :
    byte < 0x80 ∨ (0x80 ≤ byte ∧ (byte < 0xC2 ∨ 0xF5 ≤ byte)) ∨ (0xC2 ≤ byte ∧ byte < 0xE0)
      ∨ (0xE0 ≤ byte ∧ byte < 0xF0) ∨ (0xF0 ≤ byte ∧ byte < 0xF5) := by
  omega

theorem step_one (h : byte < 0x80) :
    State.boundary.step byte = .taken (some (Char.ofNat byte)) .boundary := by
  rw [State.step, first, if_pos h]

theorem step_two (hlow : 0xC2 ≤ byte) (hhigh : byte < 0xE0) :
    State.boundary.step byte = .taken none (.inside 1 (byte % 0x20) 0x80 0xBF) := by
  rw [State.step, first, if_neg (by omega), if_neg (by omega), if_pos hhigh]

theorem step_three (hlow : 0xE0 ≤ byte) (hhigh : byte < 0xF0) :
    State.boundary.step byte
      = .taken none (.inside 2 (byte % 0x10) (if byte = 0xE0 then 0xA0 else 0x80)
          (if byte = 0xED then 0x9F else 0xBF)) := by
  rw [State.step, first, if_neg (by omega), if_neg (by omega), if_neg (by omega), if_pos hhigh]

theorem step_four (hlow : 0xF0 ≤ byte) (hhigh : byte < 0xF5) :
    State.boundary.step byte
      = .taken none (.inside 3 (byte % 0x08) (if byte = 0xF0 then 0x90 else 0x80)
          (if byte = 0xF4 then 0x8F else 0xBF)) := by
  rw [State.step, first, if_neg (by omega), if_neg (by omega), if_neg (by omega),
    if_neg (by omega), if_pos hhigh]

/-- No character begins with another byte. -/
theorem step_no_lead (hlow : 0x80 ≤ byte) (h : byte < 0xC2 ∨ 0xF5 ≤ byte) :
    State.boundary.step byte = .refused := by
  rw [State.step, first, if_neg (by omega)]
  rcases h with h | h
  · rw [if_pos h]
  · rw [if_neg (by omega), if_neg (by omega), if_neg (by omega), if_neg (by omega)]

/-- A byte in the range that is not the last one to come. -/
theorem step_middle (h : low ≤ byte ∧ byte ≤ high) (hmissing : 1 < missing) :
    (State.inside missing bits low high).step byte
      = .taken none (.inside (missing - 1) (bits * 0x40 + byte % 0x40) 0x80 0xBF) := by
  rw [State.step, if_neg (by simp; omega), if_neg (by omega)]

/-- The last byte to come, in the range. -/
theorem step_last (h : low ≤ byte ∧ byte ≤ high) :
    (State.inside 1 bits low high).step byte
      = .taken (some (Char.ofNat (bits * 0x40 + byte % 0x40))) .boundary := by
  rw [State.step, if_neg (by simp; omega), if_pos (Nat.le_refl 1)]

/-- A byte out of the range. -/
theorem step_outside (h : ¬ (low ≤ byte ∧ byte ≤ high)) :
    (State.inside missing bits low high).step byte = .refused := by
  rw [State.step, if_pos (by simp; omega)]

end Step

-- ============================================================= many bytes

namespace State

variable {state next : State} {byte : UInt8} {rest : List UInt8}

theorem read_refused (h : state.step byte.toNat = .refused) :
    state.read (byte :: rest) = ([], none) := by
  rw [read, h]

theorem read_none (h : state.step byte.toNat = .taken none next) :
    state.read (byte :: rest) = next.read rest := by
  rw [read, h]

theorem read_some {c : Char} (h : state.step byte.toNat = .taken (some c) next) :
    state.read (byte :: rest) = (c :: (next.read rest).1, (next.read rest).2) := by
  rw [read, h]

/-- Reading in pieces is reading whole. -/
theorem read_append (front more : List UInt8) :
    state.read (front ++ more)
      = match state.read front with
        | (cs, none) => (cs, none)
        | (cs, some last) => (cs ++ (last.read more).1, (last.read more).2) := by
  induction front generalizing state with
  | nil => rfl
  | cons byte front ih =>
      rw [List.cons_append]
      cases hstep : state.step byte.toNat with
      | refused => rw [read_refused hstep, read_refused hstep]
      | taken shown next =>
          cases shown with
          | none => rw [read_none hstep, read_none hstep, ih]
          | some c =>
              rw [read_some hstep, read_some hstep, ih]
              cases next.read front with
              | mk cs last => cases last <;> rfl

end State

-- ============================================================== sequences

/-- A byte behind the second one of a character. -/
def IsTail (b : UInt8) : Prop := 0x80 ≤ b.toNat ∧ b.toNat ≤ 0xBF

/-- The bytes of a character of two bytes. -/
structure Two (a b : UInt8) : Prop where
  lead : 0xC2 ≤ a.toNat ∧ a.toNat < 0xE0
  tail : IsTail b

/-- The bytes of a character of three bytes. -/
structure Three (a b c : UInt8) : Prop where
  lead : 0xE0 ≤ a.toNat ∧ a.toNat < 0xF0
  second : (if a.toNat = 0xE0 then 0xA0 else 0x80) ≤ b.toNat
    ∧ b.toNat ≤ if a.toNat = 0xED then 0x9F else 0xBF
  tail : IsTail c

/-- The bytes of a character of four bytes. -/
structure Four (a b c d : UInt8) : Prop where
  lead : 0xF0 ≤ a.toNat ∧ a.toNat < 0xF5
  second : (if a.toNat = 0xF0 then 0x90 else 0x80) ≤ b.toNat
    ∧ b.toNat ≤ if a.toNat = 0xF4 then 0x8F else 0xBF
  third : IsTail c
  tail : IsTail d

section Sequences

variable {a b c d : UInt8} (rest : List UInt8)

theorem read_one (h : a.toNat < 0x80) :
    State.boundary.read (a :: rest)
      = (Char.ofNat a.toNat :: (State.boundary.read rest).1, (State.boundary.read rest).2) :=
  State.read_some (step_one h)

theorem read_two (h : Two a b) :
    State.boundary.read (a :: b :: rest)
      = (Char.ofNat (a.toNat % 0x20 * 0x40 + b.toNat % 0x40) :: (State.boundary.read rest).1,
          (State.boundary.read rest).2) := by
  rw [State.read_none (step_two h.lead.1 h.lead.2), State.read_some (step_last h.tail)]

theorem read_three (h : Three a b c) :
    State.boundary.read (a :: b :: c :: rest)
      = (Char.ofNat ((a.toNat % 0x10 * 0x40 + b.toNat % 0x40) * 0x40 + c.toNat % 0x40)
            :: (State.boundary.read rest).1, (State.boundary.read rest).2) := by
  rw [State.read_none (step_three h.lead.1 h.lead.2),
    State.read_none (step_middle h.second (by decide)), State.read_some (step_last h.tail)]

theorem read_four (h : Four a b c d) :
    State.boundary.read (a :: b :: c :: d :: rest)
      = (Char.ofNat (((a.toNat % 0x08 * 0x40 + b.toNat % 0x40) * 0x40 + c.toNat % 0x40) * 0x40
              + d.toNat % 0x40) :: (State.boundary.read rest).1, (State.boundary.read rest).2) := by
  rw [State.read_none (step_four h.lead.1 h.lead.2),
    State.read_none (step_middle h.second (by decide)),
    State.read_none (step_middle h.third (by decide)), State.read_some (step_last h.tail)]

end Sequences

-- ========================================================== one character

section Character

variable {c : Char}

/-- The number of a character is a scalar value. -/
theorem toNat_valid (c : Char) : c.toNat < 0xD800 ∨ 0xDFFF < c.toNat ∧ c.toNat < 0x110000 :=
  c.valid

theorem encodeChar_one (h : c.toNat < 0x80) :
    String.utf8EncodeChar c = [UInt8.ofNat c.toNat] := by
  show (if c.toNat ≤ 0x7F then _ else _) = _
  rw [if_pos (by omega)]
  rfl

theorem encodeChar_two (hlow : 0x80 ≤ c.toNat) (hhigh : c.toNat < 0x800) :
    String.utf8EncodeChar c
      = [UInt8.ofNat (c.toNat / 64 % 32 + 0xC0), UInt8.ofNat (c.toNat % 64 + 0x80)] := by
  show (if c.toNat ≤ 0x7F then _ else if c.toNat ≤ 0x7FF then _ else _) = _
  rw [if_neg (by omega), if_pos (by omega)]
  rfl

theorem encodeChar_three (hlow : 0x800 ≤ c.toNat) (hhigh : c.toNat < 0x10000) :
    String.utf8EncodeChar c
      = [UInt8.ofNat (c.toNat / 4096 % 16 + 0xE0), UInt8.ofNat (c.toNat / 64 % 64 + 0x80),
        UInt8.ofNat (c.toNat % 64 + 0x80)] := by
  show (if c.toNat ≤ 0x7F then _ else if c.toNat ≤ 0x7FF then _
    else if c.toNat ≤ 0xFFFF then _ else _) = _
  rw [if_neg (by omega), if_neg (by omega), if_pos (by omega)]
  rfl

theorem encodeChar_four (hlow : 0x10000 ≤ c.toNat) :
    String.utf8EncodeChar c
      = [UInt8.ofNat (c.toNat / 262144 % 8 + 0xF0), UInt8.ofNat (c.toNat / 4096 % 64 + 0x80),
        UInt8.ofNat (c.toNat / 64 % 64 + 0x80), UInt8.ofNat (c.toNat % 64 + 0x80)] := by
  show (if c.toNat ≤ 0x7F then _ else if c.toNat ≤ 0x7FF then _
    else if c.toNat ≤ 0xFFFF then _ else _) = _
  rw [if_neg (by omega), if_neg (by omega), if_neg (by omega)]
  rfl

/-- A byte has the number that it is made of. -/
theorem toNat_byte {n : Nat} (h : n < 0x100) : (UInt8.ofNat n).toNat = n := by
  rw [UInt8.toNat_ofNat', Nat.mod_eq_of_lt h]

/-- An encoded character is read back. -/
theorem read_encodeChar (c : Char) (rest : List UInt8) :
    State.boundary.read (String.utf8EncodeChar c ++ rest)
      = (c :: (State.boundary.read rest).1, (State.boundary.read rest).2) := by
  have hvalid := toNat_valid c
  have hself {n : Nat} (hn : n = c.toNat) : Char.ofNat n = c := by rw [hn, Char.ofNat_toNat]
  have htail (n : Nat) : (UInt8.ofNat (n % 64 + 0x80)).toNat = n % 64 + 0x80 :=
    toNat_byte (by omega)
  by_cases hone : c.toNat < 0x80
  · rw [encodeChar_one hone]
    have hlead : (UInt8.ofNat c.toNat).toNat = c.toNat := toNat_byte (by omega)
    refine (read_one rest (by omega)).trans ?_
    rw [hself hlead]
  by_cases htwo : c.toNat < 0x800
  · rw [encodeChar_two (by omega) htwo]
    have hlead : (UInt8.ofNat (c.toNat / 64 % 32 + 0xC0)).toNat = c.toNat / 64 % 32 + 0xC0 :=
      toNat_byte (by omega)
    have h1 := htail c.toNat
    refine (read_two rest ⟨by omega, ⟨by omega, by omega⟩⟩).trans ?_
    rw [hself (by omega)]
  by_cases hthree : c.toNat < 0x10000
  · rw [encodeChar_three (by omega) hthree]
    have hlead : (UInt8.ofNat (c.toNat / 4096 % 16 + 0xE0)).toNat = c.toNat / 4096 % 16 + 0xE0 :=
      toNat_byte (by omega)
    have h1 := htail (c.toNat / 64)
    have h2 := htail c.toNat
    refine (read_three rest ⟨by omega, ⟨by split <;> omega, by split <;> omega⟩,
      ⟨by omega, by omega⟩⟩).trans ?_
    rw [hself (by omega)]
  · rw [encodeChar_four (by omega)]
    have hlead : (UInt8.ofNat (c.toNat / 262144 % 8 + 0xF0)).toNat
        = c.toNat / 262144 % 8 + 0xF0 :=
      toNat_byte (by omega)
    have h1 := htail (c.toNat / 4096)
    have h2 := htail (c.toNat / 64)
    have h3 := htail c.toNat
    refine (read_four rest ⟨by omega, ⟨by split <;> omega, by split <;> omega⟩,
      ⟨by omega, by omega⟩, ⟨by omega, by omega⟩⟩).trans ?_
    rw [hself (by omega)]

/-- What is encoded is read back. -/
theorem read_encode (cs : List Char) (rest : List UInt8) :
    State.boundary.read (encode cs ++ rest)
      = (cs ++ (State.boundary.read rest).1, (State.boundary.read rest).2) := by
  induction cs with
  | nil => rfl
  | cons c cs ih => rw [encode_cons, List.append_assoc, read_encodeChar, ih, List.cons_append]

end Character

-- ================================================ the encoding of what is read

section Encodings

variable {a b c d : UInt8}

theorem toNat_ofNat_valid {n : Nat} (h : n < 0xD800 ∨ 0xDFFF < n ∧ n < 0x110000) :
    (Char.ofNat n).toNat = n := by
  rw [Char.ofNat, dif_pos h]
  rfl

theorem ofNat_eq {n : Nat} (h : n = a.toNat) : UInt8.ofNat n = a := by
  rw [h, UInt8.ofNat_toNat]

theorem encodeChar_of_one (h : a.toNat < 0x80) :
    String.utf8EncodeChar (Char.ofNat a.toNat) = [a] := by
  have hn := toNat_ofNat_valid (n := a.toNat) (by omega)
  rw [encodeChar_one (by omega), hn, UInt8.ofNat_toNat]

theorem encodeChar_of_two (h : Two a b) :
    String.utf8EncodeChar (Char.ofNat (a.toNat % 0x20 * 0x40 + b.toNat % 0x40)) = [a, b] := by
  obtain ⟨hlead, hb, hb'⟩ := h
  have hn := toNat_ofNat_valid (n := a.toNat % 0x20 * 0x40 + b.toNat % 0x40) (by omega)
  rw [encodeChar_two (by omega) (by omega), hn, ofNat_eq (a := a) (by omega),
    ofNat_eq (a := b) (by omega)]

theorem encodeChar_of_three (h : Three a b c) :
    String.utf8EncodeChar
        (Char.ofNat ((a.toNat % 0x10 * 0x40 + b.toNat % 0x40) * 0x40 + c.toNat % 0x40))
      = [a, b, c] := by
  obtain ⟨hlead, ⟨hb, hb'⟩, hc, hc'⟩ := h
  -- the ranges exclude short forms and surrogates
  have hlow : a.toNat = 0xE0 ∧ 0xA0 ≤ b.toNat ∨ 0xE0 < a.toNat ∧ 0x80 ≤ b.toNat := by
    split at hb <;> omega
  have hhigh : a.toNat = 0xED ∧ b.toNat ≤ 0x9F ∨ a.toNat ≠ 0xED ∧ b.toNat ≤ 0xBF := by
    split at hb' <;> omega
  clear hb hb'
  have hn := toNat_ofNat_valid
    (n := (a.toNat % 0x10 * 0x40 + b.toNat % 0x40) * 0x40 + c.toNat % 0x40) (by omega)
  rw [encodeChar_three (by omega) (by omega), hn, ofNat_eq (a := a) (by omega),
    ofNat_eq (a := b) (by omega), ofNat_eq (a := c) (by omega)]

theorem encodeChar_of_four (h : Four a b c d) :
    String.utf8EncodeChar
        (Char.ofNat (((a.toNat % 0x08 * 0x40 + b.toNat % 0x40) * 0x40 + c.toNat % 0x40) * 0x40
          + d.toNat % 0x40))
      = [a, b, c, d] := by
  obtain ⟨hlead, ⟨hb, hb'⟩, ⟨hc, hc'⟩, hd, hd'⟩ := h
  -- the ranges exclude short forms and numbers that are too large
  have hlow : a.toNat = 0xF0 ∧ 0x90 ≤ b.toNat ∨ 0xF0 < a.toNat ∧ 0x80 ≤ b.toNat := by
    split at hb <;> omega
  have hhigh : a.toNat = 0xF4 ∧ b.toNat ≤ 0x8F ∨ a.toNat ≠ 0xF4 ∧ b.toNat ≤ 0xBF := by
    split at hb' <;> omega
  clear hb hb'
  have hn := toNat_ofNat_valid
    (n := ((a.toNat % 0x08 * 0x40 + b.toNat % 0x40) * 0x40 + c.toNat % 0x40) * 0x40
      + d.toNat % 0x40) (by omega)
  rw [encodeChar_four (by omega), hn, ofNat_eq (a := a) (by omega), ofNat_eq (a := b) (by omega),
    ofNat_eq (a := c) (by omega), ofNat_eq (a := d) (by omega)]

end Encodings

-- ============================================================= the front

/-- Bytes to come: the first one from `low` to `high`, the others tails. -/
def Tails : Nat → Nat → Nat → List UInt8 → Prop
  | 0, _, _, bytes => bytes = []
  | missing + 1, low, high, bytes =>
      ∃ b rest, bytes = b :: rest ∧ (low ≤ b.toNat ∧ b.toNat ≤ high)
        ∧ Tails missing 0x80 0xBF rest

/-- A reader that completes no character and does not end at a boundary. -/
def Stuck (state : State) (bytes : List UInt8) : Prop :=
  (state.read bytes).1 = [] ∧ (state.read bytes).2 ≠ some .boundary

theorem stuck_of_refused {state : State} {b : UInt8} (h : state.step b.toNat = .refused)
    (rest : List UInt8) : Stuck state (b :: rest) := by
  unfold Stuck
  rw [State.read_refused h]
  exact ⟨rfl, fun h => nomatch h⟩

theorem stuck_of_taken {state next : State} {b : UInt8} {rest : List UInt8}
    (h : state.step b.toNat = .taken none next) (hrest : Stuck next rest) :
    Stuck state (b :: rest) := by
  unfold Stuck
  rw [State.read_none h]
  exact hrest

/-- Inside a character either the bytes to come stand in front, or the
character is not completed. -/
theorem tails_or_stuck (missing bits low high : Nat) (bytes : List UInt8) :
    (∃ tails rest, bytes = tails ++ rest ∧ Tails (missing + 1) low high tails)
      ∨ Stuck (.inside (missing + 1) bits low high) bytes := by
  induction bytes generalizing missing bits low high with
  | nil => exact Or.inr ⟨rfl, fun h => nomatch h⟩
  | cons b rest ih =>
      by_cases hb : low ≤ b.toNat ∧ b.toNat ≤ high
      · cases missing with
        | zero => exact Or.inl ⟨[b], rest, rfl, b, [], rfl, hb, rfl⟩
        | succ missing =>
            have hstep : (State.inside (missing + 1 + 1) bits low high).step b.toNat
                = .taken none (.inside (missing + 1) (bits * 0x40 + b.toNat % 0x40) 0x80 0xBF) :=
              step_middle hb (by omega)
            rcases ih missing (bits * 0x40 + b.toNat % 0x40) 0x80 0xBF with
              ⟨tails, more, rfl, htails⟩ | hstuck
            · exact Or.inl ⟨b :: tails, more, rfl, b, tails, rfl, hb, htails⟩
            · exact Or.inr (stuck_of_taken hstep hstuck)
      · exact Or.inr (stuck_of_refused (step_outside hb) rest)

/-- A lead is followed by the bytes to come, or its character is not
completed. -/
theorem lead_or_stuck {a : UInt8} {missing bits low high : Nat}
    (h : State.boundary.step a.toNat = .taken none (.inside (missing + 1) bits low high))
    (rest : List UInt8) :
    (∃ tails more, rest = tails ++ more ∧ Tails (missing + 1) low high tails)
      ∨ Stuck .boundary (a :: rest) :=
  (tails_or_stuck missing bits low high rest).imp_right (stuck_of_taken h)

/-- An encoded character stands at the front of any bytes, or they complete
no character. -/
theorem front_cases (bytes : List UInt8) :
    bytes = [] ∨ (∃ c rest, bytes = String.utf8EncodeChar c ++ rest) ∨ Stuck .boundary bytes := by
  cases bytes with
  | nil => exact Or.inl rfl
  | cons a rest =>
      refine Or.inr ?_
      rcases lead_cases a.toNat with hone | hnone | hlead | hlead | hlead
      · exact Or.inl ⟨Char.ofNat a.toNat, rest, by rw [encodeChar_of_one hone]; rfl⟩
      · exact Or.inr (stuck_of_refused (step_no_lead hnone.1 hnone.2) rest)
      · rcases lead_or_stuck (step_two hlead.1 hlead.2) rest with ⟨_, more, rfl, htails⟩ | hstuck
        · obtain ⟨b, _, rfl, hb, rfl⟩ := htails
          exact Or.inl ⟨_, more, by rw [encodeChar_of_two ⟨hlead, hb⟩]; rfl⟩
        · exact Or.inr hstuck
      · rcases lead_or_stuck (step_three hlead.1 hlead.2) rest with ⟨_, more, rfl, htails⟩ | hstuck
        · obtain ⟨b, _, rfl, hb, c, _, rfl, hc, rfl⟩ := htails
          exact Or.inl ⟨_, more, by rw [encodeChar_of_three ⟨hlead, hb, hc⟩]; rfl⟩
        · exact Or.inr hstuck
      · rcases lead_or_stuck (step_four hlead.1 hlead.2) rest with ⟨_, more, rfl, htails⟩ | hstuck
        · obtain ⟨b, _, rfl, hb, c, _, rfl, hc, d, _, rfl, hd, rfl⟩ := htails
          exact Or.inl ⟨_, more, by rw [encodeChar_of_four ⟨hlead, hb, hc, hd⟩]; rfl⟩
        · exact Or.inr hstuck

/-- The characters that are read are encoded by the front of the bytes, and
by all of them if the reader ends at a boundary. -/
theorem encode_read (bytes : List UInt8) :
    encode (State.boundary.read bytes).1 <+: bytes
      ∧ ((State.boundary.read bytes).2 = some .boundary
        → encode (State.boundary.read bytes).1 = bytes) := by
  -- a character at the front takes at least one byte
  induction hn : bytes.length using Nat.strongRecOn generalizing bytes with
  | _ n ih =>
      rcases front_cases bytes with rfl | ⟨c, rest, rfl⟩ | ⟨hnone, hend⟩
      · exact ⟨List.nil_prefix, fun _ => rfl⟩
      · have hpos : 0 < (String.utf8EncodeChar c).length := by
          rw [String.length_utf8EncodeChar]
          exact c.utf8Size_pos
        rw [List.length_append] at hn
        obtain ⟨hstarts, hwhole⟩ := ih rest.length (by omega) rest rfl
        rw [read_encodeChar, encode_cons]
        refine ⟨(List.prefix_append_right_inj _).2 hstarts, fun hend => ?_⟩
        rw [hwhole hend]
      · rw [hnone]
        exact ⟨List.nil_prefix, fun h => absurd h hend⟩

/-- The characters that are read are those of the longest text at the
front. -/
theorem longestText_iff {bytes : List UInt8} {cs : List Char} :
    LongestText bytes cs ↔ (State.boundary.read bytes).1 = cs := by
  have hstarts := (encode_read bytes).1
  -- what any text at the front encodes is read
  have hread {other : List Char} (h : encode other <+: bytes) :
      other <+: (State.boundary.read bytes).1 := by
    obtain ⟨rest, rfl⟩ := h
    rw [read_encode]
    exact List.prefix_append _ _
  have hlength {other : List Char} (h : encode other <+: bytes) :
      (encode other).length ≤ (encode (State.boundary.read bytes).1).length := by
    obtain ⟨more, hmore⟩ := hread h
    rw [← hmore, encode_append, List.length_append]
    omega
  constructor
  · intro h
    obtain ⟨more, hmore⟩ := hread h.starts
    have hle := h.longest _ hstarts
    rw [← hmore, encode_append, List.length_append] at hle
    cases more with
    | nil => rw [← hmore, List.append_nil]
    | cons c more =>
        have hpos := c.utf8Size_pos
        rw [encode_cons, List.length_append, String.length_utf8EncodeChar] at hle
        omega
  · intro h
    subst h
    exact ⟨hstarts, fun other hother => hlength hother⟩

/-- The bytes are a text if the reader ends at a boundary. -/
theorem isText_iff {bytes : List UInt8} :
    IsText bytes ↔ (State.boundary.read bytes).2 = some .boundary := by
  constructor
  · intro h
    obtain ⟨cs, rfl⟩ := h
    have hread := read_encode cs []
    rw [List.append_nil] at hread
    rw [hread]
    rfl
  · intro h
    exact ⟨_, (encode_read bytes).2 h⟩

-- ========================================================== what can follow

/-- A state from which a character can be completed: bytes are to come,
and the range of the next one is not empty. -/
def Open : State → Prop
  | .boundary => True
  | .inside missing _ low high => 0 < missing ∧ low ≤ high ∧ high < 0x100

/-- A byte that is taken leaves the reader in such a state. -/
theorem open_of_step {state next : State} {byte : Nat} {shown : Option Char}
    (h : state.step byte = .taken shown next) : Open next := by
  cases state with
  | boundary =>
      rcases lead_cases byte with hone | hnone | hlead | hlead | hlead
      · rw [step_one hone] at h
        cases h
        trivial
      · rw [step_no_lead hnone.1 hnone.2] at h
        cases h
      · rw [step_two hlead.1 hlead.2] at h
        cases h
        exact ⟨by decide, by decide, by decide⟩
      · rw [step_three hlead.1 hlead.2] at h
        cases h
        exact ⟨by decide, by split <;> split <;> omega, by split <;> decide⟩
      · rw [step_four hlead.1 hlead.2] at h
        cases h
        exact ⟨by decide, by split <;> split <;> omega, by split <;> decide⟩
  | inside missing bits low high =>
      rw [State.step] at h
      split at h
      · cases h
      dsimp only at h
      split at h
      · cases h
        trivial
      · cases h
        exact ⟨by omega, by decide, by decide⟩

theorem Open.read {state last : State} (h : Open state) {bytes : List UInt8}
    (hlast : (state.read bytes).2 = some last) : Open last := by
  induction bytes generalizing state with
  | nil =>
      cases hlast
      exact h
  | cons b rest ih =>
      cases hstep : state.step b.toNat with
      | refused =>
          rw [State.read_refused hstep] at hlast
          cases hlast
      | taken shown next =>
          refine ih (open_of_step hstep) ?_
          cases shown with
          | none => rwa [State.read_none hstep] at hlast
          | some c => rwa [State.read_some hstep] at hlast

/-- From such a state some bytes complete a character. -/
theorem Open.exists_rest {state : State} (h : Open state) :
    ∃ more, (state.read more).2 = some .boundary := by
  cases state with
  | boundary => exact ⟨[], rfl⟩
  | inside missing bits low high =>
      induction missing generalizing bits low high with
      | zero => exact absurd h.1 (Nat.lt_irrefl 0)
      | succ missing ih =>
          obtain ⟨-, hle, hbyte⟩ := h
          have hb : (UInt8.ofNat low).toNat = low := toNat_byte (by omega)
          have hrange : low ≤ (UInt8.ofNat low).toNat ∧ (UInt8.ofNat low).toNat ≤ high := by
            rw [hb]
            exact ⟨Nat.le_refl low, hle⟩
          cases missing with
          | zero => exact ⟨[UInt8.ofNat low], by rw [State.read_some (step_last hrange)]; rfl⟩
          | succ missing =>
              obtain ⟨more, hmore⟩ := ih (bits * 0x40 + (UInt8.ofNat low).toNat % 0x40) 0x80 0xBF
                ⟨Nat.succ_pos missing, by decide, by decide⟩
              refine ⟨UInt8.ofNat low :: more, ?_⟩
              rw [State.read_none (step_middle hrange (by omega))]
              exact hmore

/-- The bytes can be completed to a text if the reader refuses none. -/
theorem live_iff {bytes : List UInt8} :
    Live bytes ↔ (State.boundary.read bytes).2 ≠ none := by
  constructor
  · intro h hnone
    obtain ⟨more, hmore⟩ := h
    rw [isText_iff, State.read_append] at hmore
    cases hread : State.boundary.read bytes with
    | mk cs last =>
        rw [hread] at hmore hnone
        cases hnone
        cases hmore
  · intro h
    cases hread : State.boundary.read bytes with
    | mk cs last =>
        cases last with
        | none =>
            rw [hread] at h
            exact absurd rfl h
        | some state =>
            have hopen : Open state :=
              Open.read (show Open .boundary from trivial) (congrArg Prod.snd hread)
            obtain ⟨more, hmore⟩ := hopen.exists_rest
            refine ⟨more, isText_iff.2 ?_⟩
            rw [State.read_append, hread]
            exact hmore

instance (bytes : List UInt8) : Decidable (IsText bytes) := decidable_of_iff _ isText_iff.symm

instance (bytes : List UInt8) : Decidable (Live bytes) := decidable_of_iff _ live_iff.symm

end LayeredLexer.Utf8
