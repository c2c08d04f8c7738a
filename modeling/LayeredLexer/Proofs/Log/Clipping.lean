/-
What an event keeps of its message: all of it if it is within the limit of
bytes, and else the longest front of whole characters that is, with three
dots behind it. Cutting never fails, and leaves at most three bytes of the
limit unused.

# Where a text can be cut

A text can be cut at a byte exactly if a front of it takes as many bytes
(`isValid_iff_front`). So fronts are compared by their sizes, and the search
for the cut, which goes back from the limit, stops at the greatest size of
a front within it (`cut?_eq`); that there is one is due to the empty front.
Behind the front that is found stands a character of at most four bytes,
and the front that ends behind that character no longer fits: this is why
the search goes back three bytes at most (`le_size_add_three`).
-/
import LayeredLexer.Log.Event
import Mathlib.Data.Nat.Find

namespace LayeredLexer.Log

-- ================================================================= fronts

/-- The longest front of a text, in whole characters, that takes at most so
many bytes. -/
structure LongestFront (room : Nat) (text front : String) : Prop where
  starts : front.toList <+: text.toList
  fits : front.utf8ByteSize ≤ room
  longest : ∀ other : String, other.toList <+: text.toList → other.utf8ByteSize ≤ room →
    other.toList <+: front.toList

section Fronts

variable {text front : String}

/-- A front of the characters is followed by the rest of the text. -/
theorem isPrefix_iff_append : front.toList <+: text.toList ↔ ∃ rest, front ++ rest = text := by
  constructor
  · intro h
    obtain ⟨rest, hrest⟩ := h
    refine ⟨String.ofList rest, String.toList_inj.1 ?_⟩
    rw [String.toList_append, String.toList_ofList, hrest]
  · intro h
    obtain ⟨rest, rfl⟩ := h
    rw [String.toList_append]
    exact List.prefix_append _ _

/-- A text can be cut at a byte if a front of it takes as many bytes. -/
theorem isValid_iff_front {byte : Nat} :
    String.Pos.Raw.IsValid text ⟨byte⟩
      ↔ ∃ front : String, front.toList <+: text.toList ∧ front.utf8ByteSize = byte := by
  rw [String.Pos.Raw.isValid_iff_exists_append]
  constructor
  · intro h
    obtain ⟨front, rest, rfl, hsize⟩ := h
    refine ⟨front, isPrefix_iff_append.2 ⟨rest, rfl⟩, ?_⟩
    rw [← String.byteIdx_rawEndPos, ← hsize]
  · intro h
    obtain ⟨front, hfront, rfl⟩ := h
    obtain ⟨rest, rfl⟩ := isPrefix_iff_append.1 hfront
    exact ⟨front, rest, rfl, rfl⟩

/-- The smaller one of two fronts is a front of the other. -/
theorem isPrefix_of_size_le {other : String} (hfront : front.toList <+: text.toList)
    (hother : other.toList <+: text.toList) (hsize : other.utf8ByteSize ≤ front.utf8ByteSize) :
    other.toList <+: front.toList := by
  rcases List.prefix_or_prefix_of_prefix hother hfront with h | h
  · exact h
  · obtain ⟨more, rfl⟩ := isPrefix_iff_append.1 h
    rw [String.utf8ByteSize_append] at hsize
    obtain rfl : more = "" := String.utf8ByteSize_eq_zero_iff.1 (by omega)
    simp

/-- As many first bytes as a front takes are that front. -/
theorem front?_size (h : front.toList <+: text.toList) :
    front? text front.utf8ByteSize = some front := by
  have hvalid : String.Pos.Raw.IsValid text ⟨front.utf8ByteSize⟩ :=
    isValid_iff_front.2 ⟨front, h, rfl⟩
  obtain ⟨rest, hrest⟩ := isPrefix_iff_append.1 h
  have hsplits : (text.pos ⟨front.utf8ByteSize⟩ hvalid).Splits front rest :=
    ⟨hrest.symm, String.offset_pos⟩
  rw [front?, dif_pos hvalid, (String.Pos.splits _).eq_left hsplits]

end Fronts

-- ============================================================= the search

section Search

variable {text front : String} {room : Nat}

/-- The search stops at the greatest size of a front within the room. -/
theorem cut?_eq (text : String) (room : Nat) :
    cut? text room
      = some (Nat.findGreatest (fun byte => String.Pos.Raw.IsValid text ⟨byte⟩) room) := by
  induction room with
  | zero => exact if_pos String.Pos.Raw.isValid_zero
  | succ before ih =>
      rw [cut?, Nat.findGreatest_succ, ih]
      split <;> rfl

/-- What stands before the cut is a front of the text. -/
theorem exists_front (text : String) (room : Nat) :
    ∃ front : String, front.toList <+: text.toList
      ∧ cut? text room = some front.utf8ByteSize := by
  obtain ⟨cut, hcut, hvalid⟩ := exists_cut? text room
  obtain ⟨front, hfront, rfl⟩ := isValid_iff_front.1 hvalid
  exact ⟨front, hfront, hcut⟩

theorem size_le_room (hcut : cut? text room = some front.utf8ByteSize) :
    front.utf8ByteSize ≤ room := by
  rw [cut?_eq] at hcut
  rw [← Option.some.inj hcut]
  exact Nat.findGreatest_le room

/-- No front that fits takes more bytes than the one before the cut. -/
theorem size_le_size (hcut : cut? text room = some front.utf8ByteSize) {other : String}
    (hother : other.toList <+: text.toList) (hfits : other.utf8ByteSize ≤ room) :
    other.utf8ByteSize ≤ front.utf8ByteSize := by
  rw [cut?_eq] at hcut
  rw [← Option.some.inj hcut]
  exact Nat.le_findGreatest hfits (isValid_iff_front.2 ⟨other, hother, rfl⟩)

theorem longestFront_of_cut (hfront : front.toList <+: text.toList)
    (hcut : cut? text room = some front.utf8ByteSize) : LongestFront room text front where
  starts := hfront
  fits := size_le_room hcut
  longest _ hother hfits := isPrefix_of_size_le hfront hother (size_le_size hcut hother hfits)

/-- The search goes back three bytes at most. -/
theorem le_size_add_three (hroom : room ≤ text.utf8ByteSize)
    (hfront : front.toList <+: text.toList)
    (hcut : cut? text room = some front.utf8ByteSize) : room ≤ front.utf8ByteSize + 3 := by
  by_contra hfar
  obtain ⟨rest, hrest⟩ := hfront
  cases rest with
  | nil =>
      have hwhole : front = text := String.toList_inj.1 (by rw [← hrest, List.append_nil])
      rw [hwhole] at hfar
      omega
  | cons c rest =>
      -- the front with one more character fits as well
      have hlonger : (front ++ String.singleton c).toList <+: text.toList := by
        refine ⟨rest, ?_⟩
        rw [String.toList_append, String.toList_singleton, List.append_assoc, ← hrest]
        rfl
      have hsize : (front ++ String.singleton c).utf8ByteSize
          = front.utf8ByteSize + c.utf8Size := by
        rw [String.utf8ByteSize_append, String.utf8ByteSize_singleton]
      have hpositive := c.utf8Size_pos
      have hfour := c.utf8Size_le_four
      have hle := size_le_size hcut hlonger (by omega)
      omega

/-- A character of four bytes is kept whole or left out, and between its
bytes there is no cut. -/
example : cut? "a😀" 4 = some 1 ∧ cut? "a😀" 5 = some 5 ∧ front? "a😀" 4 = none := by
  decide +kernel

end Search

-- ======================================================== the main result

/-- What an event keeps of its message. Making one never fails. A message
of at most 2048 bytes is kept as it is. In a longer one the search for the
cut ends, the bytes before the cut are a text, namely the longest front of
the message within 2048 bytes, and this is kept with three dots behind it;
it takes at least 2045 bytes. -/
theorem Event.plain_message (level : Level) (code : Code) (message : String) :
    let event := plain level code message
    clip? message = some event.message
      ∧ if message.utf8ByteSize ≤ 2048 then event.message = message
        else ∃ front, cut? message 2048 = some front.utf8ByteSize
          ∧ front? message front.utf8ByteSize = some front
          ∧ event.message = front ++ "..."
          ∧ LongestFront 2048 message front ∧ 2045 ≤ front.utf8ByteSize := by
  intro event
  have hclip : clip? message = some event.message := (Option.some_get _).symm
  have hlimit : messageLimit = 2048 := rfl
  refine ⟨hclip, ?_⟩
  rw [clip?, hlimit] at hclip
  split
  next hfits =>
    rw [if_pos hfits] at hclip
    exact (Option.some.inj hclip).symm
  next hlong =>
    obtain ⟨front, hfront, hcut⟩ := exists_front message 2048
    have hslice := front?_size hfront
    rw [if_neg hlong, hcut, Option.bind_eq_bind, Option.bind_some, hslice] at hclip
    have hnear := le_size_add_three (by omega) hfront hcut
    exact ⟨front, hcut, hslice, (Option.some.inj hclip).symm, longestFront_of_cut hfront hcut,
      by omega⟩

end LayeredLexer.Log
