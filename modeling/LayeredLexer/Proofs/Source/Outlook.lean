/-
What a source is going to deliver. An outlook lists the characters and
failures that reads will find, one read each, and the answer of every read
after them. The outlook of a device follows its script piece by piece; it
knows neither the size of the buffer nor where one read ends and the next
one begins.

# Reading follows the outlook

A read of the device finds the failure in front of the script, the end, or
bytes of the first piece, and the outlook of the script does not change
when that piece is cut behind them (`ofPieces_cut`). So what a supply finds
next is what its outlook has in front (`Supply.meets_more`), and a read of
the source is a read of the outlook (`CharSource.next_eq`).
-/
import LayeredLexer.Proofs.Text.Utf8
import LayeredLexer.Source.CharSource

namespace LayeredLexer

open Utf8 (State)

/-- What reads are answered with: a character or a failure each, and then
always the last answer. -/
structure Outlook where
  items : List (Except SourceError Char)
  last : Except SourceError (Option Char)

namespace Outlook

/-- One read. -/
def read : Outlook → Except SourceError (Option Char) × Outlook
  | ⟨[], last⟩ => (last, ⟨[], last⟩)
  | ⟨item :: items, last⟩ => (item.map some, ⟨items, last⟩)

/-- A failure in front. -/
def fail (cause : SourceError) (ahead : Outlook) : Outlook :=
  ⟨.error cause :: ahead.items, ahead.last⟩

/-- Characters in front. -/
def prepend (cs : List Char) (ahead : Outlook) : Outlook := ⟨cs.map .ok ++ ahead.items, ahead.last⟩

/-- There is nothing more. -/
def ended : Outlook := ⟨[], .ok none⟩

/-- The bytes that are next are no characters. -/
def invalid : Outlook := ⟨[], .error .invalidEncoding⟩

theorem prepend_append (cs more : List Char) (ahead : Outlook) :
    ahead.prepend (cs ++ more) = (ahead.prepend more).prepend cs := by
  simp [prepend]

/-- The outlook of a script, for a reader that is in this state. -/
def ofPieces (state : State) : List Piece → Outlook
  | [] => if state = .boundary then ended else invalid
  | .failure cause :: rest => (ofPieces state rest).fail (.ofIo cause)
  | .bytes content :: rest =>
      match state.read content with
      | (cs, some next) => (ofPieces next rest).prepend cs
      | (cs, none) => invalid.prepend cs

/-- A seam more or less between bytes makes no difference. -/
theorem ofPieces_cut (state : State) (front later : List UInt8) (rest : List Piece) :
    ofPieces state (.bytes (front ++ later) :: rest)
      = ofPieces state (.bytes front :: .bytes later :: rest) := by
  simp only [ofPieces, State.read_append]
  cases state.read front with
  | mk cs last =>
      cases last with
      | none => rfl
      | some next =>
          dsimp only
          cases next.read later with
          | mk more last =>
              cases last with
              | none => exact prepend_append cs more invalid
              | some after => exact prepend_append cs more _

end Outlook

-- =============================================================== devices

namespace Device

variable {device next : Device}

/-- No piece of the script is an end of the file. -/
def Filled (device : Device) : Prop := ∀ content, .bytes content ∈ device.pieces → content ≠ []

/-- A failed read found the failure in front. -/
theorem pieces_of_error {cause : IoFailure} (h : device.read = (.error cause, next)) :
    device.pieces = .failure cause :: next.pieces := by
  unfold read at h
  split at h
  · cases h
  · next hpieces =>
    cases h
    exact hpieces
  · split at h <;> cases h

/-- A read that found bytes took them from the front of the script. -/
theorem outlook_of_bytes {found : List UInt8} (h : device.read = (.ok found, next))
    (hfound : found ≠ []) (state : State) :
    Outlook.ofPieces state device.pieces = .ofPieces state (.bytes found :: next.pieces) := by
  unfold read at h
  split at h
  · cases h
    exact absurd rfl hfound
  · cases h
  · next content rest hpieces =>
    rw [hpieces]
    split at h
    · cases h
      rfl
    · cases h
      conv => lhs; rw [← List.take_append_drop device.room content]
      exact Outlook.ofPieces_cut state _ _ rest

/-- A read that found nothing came to the end of the script. -/
theorem pieces_of_end (hfilled : device.Filled) (h : device.read = (.ok [], next)) :
    device.pieces = [] := by
  unfold read at h
  split at h
  · next hpieces => exact hpieces
  · cases h
  · next content rest hpieces =>
    have hcontent : content ≠ [] := hfilled content (by rw [hpieces]; exact List.mem_cons_self)
    split at h
    · cases h
      exact absurd rfl hcontent
    · have hroom : device.room ≠ 0 := by
        unfold room
        omega
      have htake : content.take device.room = [] := by
        injection h with h
        injection h
      rcases List.take_eq_nil_iff.1 htake with hzero | hnil
      · exact absurd hzero hroom
      · exact absurd hnil hcontent

/-- A read leaves no empty piece behind. -/
theorem Filled.of_read {result : Except IoFailure (List UInt8)} (hfilled : device.Filled)
    (h : device.read = (result, next)) : next.Filled := by
  unfold Device.read at h
  split at h
  · cases h
    exact hfilled
  · next hpieces =>
    cases h
    intro content hcontent
    exact hfilled content (by rw [hpieces]; exact List.mem_cons_of_mem _ hcontent)
  · next content rest hpieces =>
    split at h
    · cases h
      intro other hother
      exact hfilled other (by rw [hpieces]; exact List.mem_cons_of_mem _ hother)
    · next hlater =>
      cases h
      intro other hother
      rcases List.mem_cons.1 hother with heq | hother
      · cases heq
        exact hlater
      · exact hfilled other (by rw [hpieces]; exact List.mem_cons_of_mem _ hother)

end Device

-- ============================================================== supplies

namespace Supply

/-- What a supply is going to deliver. -/
def outlook : Supply → Outlook
  | ended => .ended
  | invalid => .invalid
  | .device d state => .ofPieces state d.pieces

/-- The device of a supply has no empty piece. -/
def Filled : Supply → Prop
  | ended | invalid => True
  | .device d _ => d.Filled

/-- What a request for more finds is what the outlook has in front. -/
def Meets (supply : Supply) : Except SourceError (List Char) × Supply → Prop
  | (.ok (c :: cs), next) => supply.outlook = next.outlook.prepend (c :: cs)
  | (.ok [], next) => supply.outlook = .ended ∧ next.outlook = .ended
  | (.error cause, next) => supply.outlook.read = (.error cause, next.outlook)

theorem meets_more {supply : Supply} (h : supply.Filled) :
    supply.Meets supply.more ∧ supply.more.2.Filled := by
  fun_induction more supply with
  | case1 => exact ⟨⟨rfl, rfl⟩, trivial⟩
  | case2 => exact ⟨rfl, trivial⟩
  | case3 d state failure next hread =>
      refine ⟨?_, h.of_read hread⟩
      show (Outlook.ofPieces state d.pieces).read = _
      rw [Device.pieces_of_error hread]
      rfl
  | case4 d state next hread hend =>
      refine ⟨⟨?_, rfl⟩, trivial⟩
      show Outlook.ofPieces state d.pieces = _
      rw [Device.pieces_of_end h hread]
      cases state with
      | boundary => rfl
      | inside => cases hend
  | case5 d state next hread hend =>
      cases state with
      | boundary => exact absurd rfl hend
      | inside missing bits low high =>
          refine ⟨?_, trivial⟩
          show (Outlook.ofPieces (.inside missing bits low high) d.pieces).read = _
          rw [Device.pieces_of_end h hread]
          rfl
  | case6 d state byte bytes next hread c characters last hstep =>
      refine ⟨?_, ?_⟩
      · show Outlook.ofPieces state d.pieces = _
        rw [Device.outlook_of_bytes hread (List.cons_ne_nil _ _), Outlook.ofPieces, hstep]
        cases last <;> rfl
      · cases last with
        | none => trivial
        | some last => exact h.of_read hread
  | case7 d state byte bytes next hread hstep =>
      refine ⟨?_, trivial⟩
      show (Outlook.ofPieces state d.pieces).read = _
      rw [Device.outlook_of_bytes hread (List.cons_ne_nil _ _), Outlook.ofPieces, hstep]
      rfl
  | case8 d state byte bytes next hread last hstep ih =>
      obtain ⟨hmeets, hfilled⟩ := ih (h.of_read hread)
      have hsame : (device d state).outlook = (device next last).outlook := by
        show Outlook.ofPieces state d.pieces = _
        rw [Device.outlook_of_bytes hread (List.cons_ne_nil _ _), Outlook.ofPieces, hstep]
        rfl
      refine ⟨?_, hfilled⟩
      unfold Meets at hmeets ⊢
      rw [hsame]
      exact hmeets

end Supply

-- =============================================================== sources

namespace CharSource

/-- What a source is going to deliver. -/
def outlook (source : CharSource) : Outlook := source.supply.outlook.prepend source.ready

/-- The device of a source has no empty piece. -/
def Filled (source : CharSource) : Prop := source.supply.Filled

theorem outlook_unread (source : CharSource) (c : Char) :
    (source.unread c).outlook = source.outlook.prepend [c] := rfl

/-- The next character is the first item of the outlook, and a failure
too. -/
theorem next_eq {source : CharSource} (h : source.Filled) :
    source.next.1 = source.outlook.read.1 ∧ source.next.2.outlook = source.outlook.read.2
      ∧ source.next.2.Filled := by
  obtain ⟨ready, supply⟩ := source
  cases ready with
  | cons c rest => exact ⟨rfl, rfl, h⟩
  | nil =>
      obtain ⟨hmeets, hfilled⟩ := Supply.meets_more h
      have houtlook : (⟨[], supply⟩ : CharSource).outlook = supply.outlook := rfl
      rw [houtlook, next]
      dsimp only
      rcases hmore : supply.more with ⟨found, after⟩
      rw [hmore] at hmeets hfilled
      match found with
      | .ok (c :: cs) =>
          rw [show supply.outlook = after.outlook.prepend (c :: cs) from hmeets]
          exact ⟨rfl, rfl, hfilled⟩
      | .ok [] =>
          obtain ⟨hbefore, hafter⟩ := hmeets
          rw [hbefore]
          exact ⟨rfl, hafter, hfilled⟩
      | .error cause =>
          rw [show supply.outlook.read = (.error cause, after.outlook) from hmeets]
          exact ⟨rfl, rfl, hfilled⟩

end CharSource

end LayeredLexer
