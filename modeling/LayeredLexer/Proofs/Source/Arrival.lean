/-
How bytes arrive makes no difference to the characters. The script of a
device is a list of pieces of bytes, with failures between them. Whatever
the size of the buffer, and however reads and unreads follow each other,
the reads that find nothing given back deliver the same items: the
characters of the longest text at the front of all bytes, and among them
the failures that are reached.

# Where a failure stands

A failure is reached if the bytes before it may still become a text, so
that no read has met a wrong byte. It stands behind the characters of the
longest text at the front of these bytes: a character that it cuts comes
whole behind it. `cuts` lists the failures of a script with the bytes
before each, `marks` those of a delivery with the characters before each,
and `Delivers` compares the two.
-/
import LayeredLexer.Proofs.Source.Outlook
import Mathlib.Data.List.Forall2

namespace LayeredLexer

open Utf8

-- ============================================================== the script

/-- The bytes of a piece. -/
def Piece.content : Piece → List UInt8
  | .bytes content => content
  | .failure _ => []

/-- All bytes of a script. -/
def allBytes (pieces : List Piece) : List UInt8 := pieces.flatMap Piece.content

/-- The failures of a script, each with the bytes before it. -/
def cuts (before : List UInt8) : List Piece → List (List UInt8 × IoFailure)
  | [] => []
  | .bytes content :: rest => cuts (before ++ content) rest
  | .failure cause :: rest => (before, cause) :: cuts before rest

-- ============================================================ the delivery

/-- The characters that are delivered. -/
def charsOf (items : List (Except SourceError Char)) : List Char :=
  items.filterMap Except.toOption

/-- The failures that are delivered, each with the characters before it. -/
def marks (before : List Char) :
    List (Except SourceError Char) → List (List Char × SourceError)
  | [] => []
  | .ok c :: rest => marks (before ++ [c]) rest
  | .error cause :: rest => (before, cause) :: marks before rest

/-- An outlook delivers what a script holds. -/
structure Delivers (pieces : List Piece) (ahead : Outlook) : Prop where
  /-- The characters are those of the longest text at the front. -/
  text : LongestText (allBytes pieces) (charsOf ahead.items)
  /-- Each failure that is reached stands behind the characters of the
  longest text before it. -/
  failures : List.Forall₂
    (fun mark cut => LongestText cut.1 mark.1 ∧ mark.2 = .ofIo cut.2)
    (marks [] ahead.items) ((cuts [] pieces).filter fun cut => Live cut.1)
  /-- Behind them is the end, if nothing but a text was found. -/
  last : ahead.last = if IsText (allBytes pieces) then .ok none else .error .invalidEncoding

-- ================================================================ requests

/-- What can be asked of a source. -/
inductive SourceRequest where
  | read
  | unread (c : Char)
deriving DecidableEq, Repr

/-- What the reads among requests are answered with. -/
def CharSource.answers (source : CharSource) :
    List SourceRequest → List (Except SourceError (Option Char))
  | [] => []
  | .read :: rest => source.next.1 :: source.next.2.answers rest
  | .unread c :: rest => (source.unread c).answers rest

/-- The characters that were given back, the last one first, and what is
ahead of the reads that find none of them. -/
structure Cursor where
  back : List Char
  ahead : Outlook

/-- The answers of a cursor: what was given back last goes first. -/
def Cursor.answers : Cursor → List SourceRequest → List (Except SourceError (Option Char))
  | _, [] => []
  | ⟨c :: back, ahead⟩, .read :: rest => .ok (some c) :: answers ⟨back, ahead⟩ rest
  | ⟨[], ahead⟩, .read :: rest => ahead.read.1 :: answers ⟨[], ahead.read.2⟩ rest
  | ⟨back, ahead⟩, .unread c :: rest => answers ⟨c :: back, ahead⟩ rest

/-- A source answers as the cursor does whose characters it has. -/
theorem CharSource.answers_eq {source : CharSource} {cursor : Cursor} (h : source.Filled)
    (hcursor : source.outlook = cursor.ahead.prepend cursor.back) (requests : List SourceRequest) :
    source.answers requests = cursor.answers requests := by
  induction requests generalizing source cursor with
  | nil => cases cursor; rfl
  | cons request rest ih =>
      obtain ⟨back, ahead⟩ := cursor
      cases request with
      | unread c =>
          refine ih h ?_
          rw [outlook_unread, hcursor]
          exact (Outlook.prepend_append [c] back ahead).symm
      | read =>
          obtain ⟨hanswer, hnext, hfilled⟩ := next_eq h
          rw [hcursor] at hanswer hnext
          rw [answers, hanswer]
          cases back with
          | nil => exact congrArg _ (ih hfilled hnext)
          | cons c back => exact congrArg _ (ih hfilled hnext)

-- ============================================================= the outlook

theorem charsOf_prepend (cs : List Char) (ahead : Outlook) :
    charsOf (ahead.prepend cs).items = cs ++ charsOf ahead.items := by
  induction cs with
  | nil => rfl
  | cons c cs ih => exact congrArg (c :: ·) ih

theorem marks_prepend (before cs : List Char) (ahead : Outlook) :
    marks before (ahead.prepend cs).items = marks (before ++ cs) ahead.items := by
  induction cs generalizing before with
  | nil => rw [List.append_nil]; rfl
  | cons c cs ih =>
      show marks (before ++ [c]) (ahead.prepend cs).items = _
      rw [ih, List.append_assoc]
      rfl

section Outlooks

variable (state : State) (pieces : List Piece)

/-- The characters of a script are those of its bytes. -/
theorem charsOf_ofPieces :
    charsOf (Outlook.ofPieces state pieces).items = (state.read (allBytes pieces)).1 := by
  induction pieces generalizing state with
  | nil =>
      rw [Outlook.ofPieces]
      split <;> rfl
  | cons piece rest ih =>
      cases piece with
      | failure cause => exact ih state
      | bytes content =>
          show _ = (state.read (content ++ allBytes rest)).1
          rw [Outlook.ofPieces, State.read_append]
          rcases state.read content with ⟨cs, _ | next⟩
          · show charsOf (Outlook.invalid.prepend cs).items = cs
            rw [charsOf_prepend]
            exact List.append_nil cs
          · show charsOf ((Outlook.ofPieces next rest).prepend cs).items = _
            rw [charsOf_prepend, ih]

/-- Its end is good if the reader comes to a boundary there. -/
theorem last_ofPieces :
    (Outlook.ofPieces state pieces).last
      = if (state.read (allBytes pieces)).2 = some .boundary then .ok none
        else .error .invalidEncoding := by
  induction pieces generalizing state with
  | nil =>
      show _ = if some state = some State.boundary then _ else _
      by_cases hstate : state = .boundary
      · rw [Outlook.ofPieces, if_pos hstate, if_pos (congrArg some hstate)]
        rfl
      · rw [Outlook.ofPieces, if_neg hstate, if_neg fun h => hstate (Option.some.inj h)]
        rfl
  | cons piece rest ih =>
      cases piece with
      | failure cause => exact ih state
      | bytes content =>
          show _ = if (state.read (content ++ allBytes rest)).2 = some .boundary then _ else _
          rw [Outlook.ofPieces, State.read_append]
          rcases state.read content with ⟨cs, _ | next⟩
          · rfl
          · exact ih next

end Outlooks

/-- The bytes before a failure begin with those before the rest of the
script. -/
theorem prefix_of_mem_cuts {before : List UInt8} {pieces : List Piece}
    {cut : List UInt8 × IoFailure} (h : cut ∈ cuts before pieces) : before <+: cut.1 := by
  induction pieces generalizing before with
  | nil => cases h
  | cons piece rest ih =>
      cases piece with
      | bytes content => exact (List.prefix_append before content).trans (ih h)
      | failure cause =>
          rcases List.mem_cons.1 h with rfl | h
          · exact List.prefix_rfl
          · exact ih h

/-- Behind a wrong byte nothing is live. -/
theorem filter_cuts_eq_nil {before : List UInt8} (h : (State.boundary.read before).2 = none)
    (pieces : List Piece) : (cuts before pieces).filter (fun cut => Live cut.1) = [] := by
  rw [List.filter_eq_nil_iff]
  intro cut hcut hlive
  obtain ⟨more, hmore⟩ := prefix_of_mem_cuts hcut
  rw [decide_eq_true_eq, live_iff, ← hmore, State.read_append] at hlive
  rcases hread : State.boundary.read before with ⟨cs, last⟩
  rw [hread] at h hlive
  cases h
  exact hlive rfl

/-- The failures of a script behind bytes that a reader has gone through
stand where the bytes before them have been read. -/
theorem marks_ofPieces {seen : List UInt8} {cs : List Char} {state : State}
    (hseen : State.boundary.read seen = (cs, some state)) (pieces : List Piece) :
    marks cs (Outlook.ofPieces state pieces).items
      = ((cuts seen pieces).filter fun cut => Live cut.1).map
          (fun cut => ((State.boundary.read cut.1).1, SourceError.ofIo cut.2)) := by
  induction pieces generalizing seen cs state with
  | nil =>
      rw [Outlook.ofPieces]
      split <;> rfl
  | cons piece rest ih =>
      cases piece with
      | failure cause =>
          have hlive : Live seen := live_iff.2 (by rw [hseen]; exact Option.some_ne_none _)
          show (cs, _) :: marks cs (Outlook.ofPieces state rest).items
            = (((seen, cause) :: cuts seen rest).filter _).map _
          rw [ih hseen, List.filter_cons_of_pos (by simpa using hlive), List.map_cons, hseen]
      | bytes content =>
          have hnext : State.boundary.read (seen ++ content)
              = (cs ++ (state.read content).1, (state.read content).2) := by
            rw [State.read_append, hseen]
          show marks cs (Outlook.ofPieces state (.bytes content :: rest)).items
            = ((cuts (seen ++ content) rest).filter _).map _
          rw [Outlook.ofPieces]
          rcases hread : state.read content with ⟨more, _ | next⟩
          · rw [hread] at hnext
            rw [filter_cuts_eq_nil (congrArg Prod.snd hnext)]
            exact marks_prepend cs more .invalid
          · rw [hread] at hnext
            exact (marks_prepend cs more _).trans (ih hnext)

/-- The outlook of a whole script delivers it. -/
theorem delivers_ofPieces (pieces : List Piece) :
    Delivers pieces (Outlook.ofPieces .boundary pieces) := by
  refine ⟨longestText_iff.2 (charsOf_ofPieces .boundary pieces).symm, ?_, ?_⟩
  · have hmarks := marks_ofPieces (show State.boundary.read [] = ([], some .boundary) from rfl)
      pieces
    rw [hmarks, List.forall₂_map_left_iff, List.forall₂_same]
    intro cut hcut
    exact ⟨longestText_iff.2 rfl, rfl⟩
  · rw [last_ofPieces]
    exact if_congr isText_iff.symm rfl rfl

-- ========================================================= the main result

/-- The reads of a device deliver its script, whatever the size of the
buffer is and whatever is given back between them. -/
theorem CharSource.ofDevice_delivers (pieces : List Piece)
    (hfilled : ∀ content, .bytes content ∈ pieces → content ≠ []) :
    ∃ ahead, Delivers pieces ahead ∧ ∀ capacity requests,
      (ofDevice ⟨pieces, capacity⟩).answers requests = Cursor.answers ⟨[], ahead⟩ requests := by
  refine ⟨_, delivers_ofPieces pieces, ?_⟩
  intro capacity requests
  have hsource : (ofDevice ⟨pieces, capacity⟩).Filled := hfilled
  exact answers_eq hsource rfl requests

/-- A character that a failure cuts, a byte that is wrong, and a failure
behind it that is never met. -/
def cutEuro : List Piece :=
  [.bytes [0x61, 0xE2], .failure ⟨.other, "reset"⟩, .bytes [0x82, 0xAC, 0xFF],
    .failure ⟨.invalidData, "late"⟩]

theorem CharSource.ofDevice_delivers_cutEuro :
    (∀ content, .bytes content ∈ cutEuro → content ≠ [])
      ∧ ∃ ahead, Delivers cutEuro ahead ∧ ∀ capacity requests,
        (ofDevice ⟨cutEuro, capacity⟩).answers requests
          = Cursor.answers ⟨[], ahead⟩ requests := by
  have hfilled : ∀ content, .bytes content ∈ cutEuro → content ≠ [] := by
    intro content hcontent
    simp only [cutEuro, List.mem_cons, Piece.bytes.injEq, reduceCtorEq, false_or, List.not_mem_nil,
      or_false] at hcontent
    rcases hcontent with rfl | rfl
    · exact List.cons_ne_nil _ _
    · exact List.cons_ne_nil _ _
  exact ⟨hfilled, ofDevice_delivers cutEuro hfilled⟩

/-- Its first failure stands before the character that it cuts, and the
second one is not reached. -/
example : (Outlook.ofPieces .boundary cutEuro).items
    = [.ok 'a', .error (.io "reset"), .ok '€'] := by
  rfl

end LayeredLexer
