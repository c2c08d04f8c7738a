/-
Byte devices. A device is the script of what its reads will find: pieces
of bytes and failures, in order. One read finds at most a buffer of bytes
and never reaches beyond a piece; a failure fails one read; a piece
without bytes, or the end of the script, reads as the end of the file.

The weight of a device falls with every read that finds something, so
reading until the end of the file ends.
-/
import LayeredLexer.Source.Error

namespace LayeredLexer

/-- What a device holds between two seams. -/
inductive Piece where
  | bytes (content : List UInt8)
  | failure (cause : IoFailure)
deriving Repr

/-- A device to read bytes from, with the size of its buffer. -/
structure Device where
  pieces : List Piece
  capacity : Nat
deriving Repr

namespace Device

/-- The buffer size of a device that is not asked for another. -/
def defaultCapacity : Nat := 8192

/-- The device of a whole content. -/
def ofBytes (content : List UInt8) : Device :=
  ⟨[.bytes content], defaultCapacity⟩

/-- The device whose every read meets the same failure, at least once. -/
def failing (cause : IoFailure) : Device :=
  ⟨[.failure cause], defaultCapacity⟩

/-- The bytes that one read takes; a buffer holds at least one. -/
def room (device : Device) : Nat := max device.capacity 1

/-- One read: the bytes found, none at the end of the file, or a failure,
and the device after it. -/
def read (device : Device) : Except IoFailure (List UInt8) × Device :=
  match device.pieces with
  | [] => (.ok [], device)
  | .failure cause :: rest => (.error cause, { device with pieces := rest })
  | .bytes content :: rest =>
    match content.drop device.room with
    | [] => (.ok content, { device with pieces := rest })
    | later =>
      (.ok (content.take device.room), { device with pieces := .bytes later :: rest })

-- ============================================================ weight

/-- The bytes a script holds, each failure and each seam counted as one. -/
def piecesWeight : List Piece → Nat
  | [] => 0
  | .bytes content :: rest => content.length + 1 + piecesWeight rest
  | .failure _ :: rest => 1 + piecesWeight rest

/-- A bound on what is left to find. -/
def weight (device : Device) : Nat := piecesWeight device.pieces

/-- What a read finds is paid for by the weight. -/
theorem length_add_weight_le {device next : Device} {found : List UInt8}
    (h : device.read = (.ok found, next)) : found.length + next.weight ≤ device.weight := by
  obtain ⟨pieces, capacity⟩ := device
  unfold read at h
  split at h
  · simp only [Prod.mk.injEq, Except.ok.injEq] at h
    obtain ⟨rfl, rfl⟩ := h
    simp
  · simp at h
  · next content rest hp =>
    simp only at hp
    split at h
    · simp only [Prod.mk.injEq, Except.ok.injEq] at h
      obtain ⟨rfl, rfl⟩ := h
      simp only [weight, piecesWeight, hp]
      omega
    · simp only [Prod.mk.injEq, Except.ok.injEq] at h
      obtain ⟨rfl, rfl⟩ := h
      simp only [weight, piecesWeight, hp, List.length_take, List.length_drop]
      omega

/-- A read that finds bytes makes the device lighter. -/
theorem weight_lt_of_ne_nil {device next : Device} {found : List UInt8}
    (h : device.read = (.ok found, next)) (hne : found ≠ []) : next.weight < device.weight := by
  have := length_add_weight_le h
  have : 0 < found.length := List.length_pos_iff.2 hne
  omega

/-- A failed read makes the device lighter. -/
theorem weight_lt_of_error {device next : Device} {cause : IoFailure}
    (h : device.read = (.error cause, next)) : next.weight < device.weight := by
  obtain ⟨pieces, capacity⟩ := device
  unfold read at h
  split at h
  · simp at h
  · next c rest hp =>
    simp only at hp
    simp only [Prod.mk.injEq, Except.error.injEq] at h
    obtain ⟨rfl, rfl⟩ := h
    simp only [weight, piecesWeight, hp]
    omega
  · split at h <;> simp at h

end Device

end LayeredLexer
