/-
Character sources: where the lexer takes its characters from, one at a
time, and gives the ones it does not want back. A source holds the
characters that are ready, the next one first, and a supply of more. A
text is a source with all its characters ready and nothing to follow. A
device is decoded as its bytes arrive: every character before the first
byte that is no UTF-8 is delivered, and only then does reading fail.

The size of a source bounds the characters still to come. Every
character that is read makes it smaller by at least one.
-/
import LayeredLexer.Source.Device
import LayeredLexer.Text.Utf8

namespace LayeredLexer

/-- Where further characters come from. -/
inductive Supply where
  /-- There are none. -/
  | ended
  /-- The bytes at this point are no characters. -/
  | invalid
  /-- They are decoded from a device, in the middle of a character or not. -/
  | device (device : Device) (state : Utf8.State)
deriving Repr

namespace Supply

/-- The number of bytes that may still turn into characters. -/
def size : Supply → Nat
  | ended | invalid => 0
  | .device d _ => d.weight + 1

/-- What follows the end of the file: nothing, or a character that was
cut off there. -/
def atEnd : Utf8.State → Supply
  | .boundary => ended
  | .inside .. => invalid

/-- The supply after a run of bytes, if the reader got through it. -/
def after (device : Device) : Option Utf8.State → Supply
  | some state => .device device state
  | none => invalid

/-- The next characters, none at the end of the source. Bytes that do not
complete a character are read over; each read that finds some makes the
device lighter. -/
def more : Supply → Except SourceError (List Char) × Supply
  | ended => (.ok [], ended)
  | invalid => (.error .invalidEncoding, invalid)
  | .device d state =>
    match _hread : d.read with
    | (.error failure, next) => (.error (.ofIo failure), .device next state)
    | (.ok [], _) =>
      match atEnd state with
      | ended => (.ok [], ended)
      | supply => (.error .invalidEncoding, supply)
    | (.ok (byte :: bytes), next) =>
      match state.read (byte :: bytes) with
      | (c :: characters, last) => (.ok (c :: characters), after next last)
      | ([], none) => (.error .invalidEncoding, invalid)
      | ([], some last) => more (.device next last)
termination_by supply => supply.size
decreasing_by
  have := Device.weight_lt_of_ne_nil _hread (by simp)
  simp only [size]
  omega

/-- Every character that a supply delivers is paid for by its size. -/
theorem length_add_size_le (supply : Supply) {found : List Char} {next : Supply}
    (h : supply.more = (.ok found, next)) : found.length + next.size ≤ supply.size := by
  fun_induction more supply with
  | case1 =>
    simp only [Prod.mk.injEq, Except.ok.injEq] at h
    obtain ⟨rfl, rfl⟩ := h
    simp
  | case2 => simp at h
  | case3 => simp at h
  | case4 =>
    simp only [Prod.mk.injEq, Except.ok.injEq] at h
    obtain ⟨rfl, rfl⟩ := h
    simp [size]
  | case5 => simp at h
  | case6 d state byte bytes next' hread c characters last hstep =>
    simp only [Prod.mk.injEq, Except.ok.injEq] at h
    obtain ⟨rfl, rfl⟩ := h
    have hlen := state.length_read (byte :: bytes)
    have hpaid := Device.length_add_weight_le hread
    rw [hstep] at hlen
    cases last <;> simp only [after, size, List.length_cons] at * <;> omega
  | case7 => simp at h
  | case8 d state byte bytes next' hread last hstep ih =>
    have := ih h
    have := Device.weight_lt_of_ne_nil hread (by simp)
    simp only [size] at *
    omega

/-- Asking for more never makes a supply larger. -/
theorem size_more_le (supply : Supply) : supply.more.2.size ≤ supply.size := by
  fun_induction more supply with
  | case1 => simp
  | case2 => simp
  | case3 d state failure next hread =>
    have := Device.weight_lt_of_error hread
    simp only [size]
    omega
  | case4 => simp [size]
  | case5 d state next hread hend =>
    cases state <;> simp [atEnd, size]
  | case6 d state byte bytes next hread c characters last hstep =>
    have := Device.length_add_weight_le hread
    cases last <;> simp only [after, size] at * <;> omega
  | case7 => simp [size]
  | case8 d state byte bytes next hread last hstep ih =>
    have := Device.weight_lt_of_ne_nil hread (by simp)
    simp only [size] at *
    omega

end Supply

/-- A source of characters: those that are ready, and a supply of more. -/
structure CharSource where
  ready : List Char
  supply : Supply
deriving Repr

namespace CharSource

/-- The source of a text. -/
def ofString (text : String) : CharSource := ⟨text.toList, .ended⟩

/-- The source of a device, decoded from its first byte. -/
def ofDevice (device : Device) : CharSource := ⟨[], .device device .boundary⟩

/-- A bound on the characters still to come. -/
def size (source : CharSource) : Nat := source.ready.length + source.supply.size

/-- The next character, none at the end of the source, or a failure. -/
def next (source : CharSource) : Except SourceError (Option Char) × CharSource :=
  match source.ready with
  | c :: rest => (.ok (some c), { source with ready := rest })
  | [] =>
    match source.supply.more with
    | (.ok (c :: rest), supply) => (.ok (some c), ⟨rest, supply⟩)
    | (.ok [], supply) => (.ok none, ⟨[], supply⟩)
    | (.error cause, supply) => (.error cause, ⟨[], supply⟩)

/-- Gives a character back: it is the next one again. -/
def unread (source : CharSource) (c : Char) : CharSource :=
  { source with ready := c :: source.ready }

/-- Reading a character makes the source smaller. -/
theorem size_lt_of_next {source rest : CharSource} {c : Char}
    (h : source.next = (.ok (some c), rest)) : rest.size < source.size := by
  obtain ⟨ready, supply⟩ := source
  unfold next at h
  split at h
  · next hready =>
    simp only at hready
    simp only [Prod.mk.injEq, Except.ok.injEq, Option.some.injEq] at h
    obtain ⟨rfl, rfl⟩ := h
    simp [size, hready]
  · next hready =>
    split at h
    · next c' rest' supply' hmore =>
      simp only [Prod.mk.injEq, Except.ok.injEq, Option.some.injEq] at h
      obtain ⟨rfl, rfl⟩ := h
      have := supply.length_add_size_le hmore
      simp only [size, List.length_cons] at *
      omega
    · simp at h
    · simp at h

/-- Giving a character back makes the source larger by it. -/
theorem size_unread (source : CharSource) (c : Char) :
    (source.unread c).size = source.size + 1 := by
  simp only [unread, size, List.length_cons]
  omega

/-- No read makes a source larger. -/
theorem size_next_le (source : CharSource) : source.next.2.size ≤ source.size := by
  obtain ⟨ready, supply⟩ := source
  have hmore := supply.size_more_le
  unfold next
  split
  · next hready =>
    simp only at hready
    simp [size, hready]
  · next hready =>
    simp only at hready
    split
    · next hfound =>
      have := supply.length_add_size_le hfound
      simp only [size, hready, List.length_cons, List.length_nil] at *
      omega
    · next hfound =>
      rw [hfound] at hmore
      simpa [size, hready] using hmore
    · next hfound =>
      rw [hfound] at hmore
      simpa [size, hready] using hmore

/-- Reads to the end of the source or to its first failure: the text so
far, the failure if there is one, and the source after it. -/
def drain (source : CharSource) (text : String := "") : String × Option SourceError × CharSource :=
  match _hnext : source.next with
  | (.ok (some c), rest) => rest.drain (text.push c)
  | (.ok none, rest) => (text, none, rest)
  | (.error cause, rest) => (text, some cause, rest)
termination_by source.size
decreasing_by exact size_lt_of_next _hnext

end CharSource

end LayeredLexer
