/-
The report of a scan fits into what can be read back: all its numbers are
within their words if the source is not too large for that, and a source
that is opened from a file never is.

# What bounds the numbers

The size of a source bounds its characters (`CharSource.length_drain_le`),
so it bounds the offsets, also of what a failure cuts short, and twice the
size bounds the requests of a scan, and with them what is counted. How far
a scan has read is another matter, since it may go on behind a failure of
the source; what bounds it is that each character is paid for when it is
taken (`Tokenizer.keeps_paid`). Lines need no bound, since the counter
stays at its greatest value.
-/
import LayeredLexer.Proofs.Json.Records
import LayeredLexer.Proofs.Lexer.Offset
import LayeredLexer.Proofs.Scan.Items
import LayeredLexer.Proofs.Scan.Lines

namespace LayeredLexer

-- ============================================================ dictionaries

/-- The entries of a dictionary are what is found under their names. -/
theorem Dictionary.Ascending.mem_iff {α : Type} {d : Dictionary α} (h : d.Ascending)
    {key : String} {value : α} : (key, value) ∈ d ↔ d.get? key = some value := by
  induction d with
  | nil => simp [get?]
  | cons first rest ih =>
      obtain ⟨k, v⟩ := first
      obtain ⟨hfirst, hrest⟩ := List.pairwise_cons.1 h
      rw [List.mem_cons, ih hrest, get?_cons, Prod.mk.injEq]
      by_cases hk : k = key
      · subst hk
        have hnone : get? k rest = none := get?_of_lt hfirst
        simp [hnone, eq_comm]
      · simp [hk, Ne.symm hk]

-- ================================================================= sources

namespace CharSource

/-- The size of a source bounds the characters that draining it finds. -/
theorem length_drain_le (source : CharSource) : source.drain.1.length ≤ source.size := by
  suffices hbehind : ∀ text : String,
      (source.drain text).1.length ≤ text.length + source.size by
    simpa using hbehind ""
  intro text
  fun_induction drain source text with
  | case1 source text c rest hnext ih =>
      have hsmaller := size_lt_of_next hnext
      rw [String.length_push] at ih
      omega
  | case2 | case3 => exact Nat.le_add_right _ _

end CharSource

namespace Tokenizer

/-- The characters that were taken and the size of what is left together
are not more than this. -/
def Paid (bound : Nat) (t : Tokenizer) : Prop := t.offset + t.source.size ≤ bound

/-- Each character is paid for when it is taken. -/
theorem keeps_paid (bound : Nat) : Keeps (Paid bound) where
  peek t h := by
    unfold peek advance
    cases t.front with
    | held | ended | failed => exact h
    | unread =>
        cases t.deferred with
        | some cause => exact h
        | none =>
            obtain ⟨hsource, hoffset, -⟩ := t.lex_reach
            have hpaid := Phase.fresh.run_size_le "" t.source
            have hempty : "".length = 0 := rfl
            show t.lex.offset + t.lex.source.size ≤ bound
            unfold Paid at h
            rw [hsource, hoffset]
            omega
  drop t h := by
    unfold Paid
    rw [t.drop_source.1, t.drop_source.2]
    exact h

end Tokenizer

theorem Stream.Bottom.offset_le {s : Stream} {bound : Nat}
    (h : s.Bottom (Tokenizer.Paid bound)) : s.offset ≤ bound := by
  induction s with
  | script s => exact h.elim
  | tokenizer t => exact (Nat.le_add_right _ _).trans h
  | lines count inner ih => exact ih h
  | balance nesting inner ih => exact ih h
  | buffer lookahead inner ih => exact ih h

-- ================================================================= reports

namespace Scan

variable {source : CharSource} {preferences : ScanPreferences}

/-- What looks and takes keep is kept to the end of a scan. -/
theorem left_bottom {Q : Tokenizer → Prop} (keeps : Tokenizer.Keeps Q)
    (preferences : ScanPreferences) {s : Stream} (h : s.Bottom Q) :
    (left preferences s).Bottom Q := by
  induction s using answers.induct preferences with
  | case1 s hgo ih =>
      rw [left_of_goesOn hgo]
      exact ih (h.perform keeps .consume)
  | case2 s hstop =>
      rw [left_of_stops (eq_false_of_ne_true hstop)]
      exact h.perform keeps .consume

/-- A scan makes at most two requests for each character, and two more. -/
theorem length_answers_source (preferences : ScanPreferences) (source : CharSource) :
    (answers preferences (checker source)).length ≤ 2 * source.size + 2 := by
  have hanswers := length_answers_le Tokenizer.pays_charactersAhead preferences
    (Stream.stack [.balance] source)
  have hdue := Stream.itemsDue_stack Tokenizer.charactersAhead [.balance] source
  rw [Stream.charactersAhead_ofSource, List.count_singleton_self] at hdue
  rw [hdue] at hanswers
  have hsize := source.length_drain_le
  have hchecker : (answers preferences (checker source)).length
      = (answers preferences (Stream.stack [.balance] source)).length := rfl
  omega

theorem length_scanned_le (preferences : ScanPreferences) (source : CharSource) :
    (scanned preferences (checker source)).length ≤ 2 * source.size + 2 :=
  (List.length_filterMap_le _ _).trans (length_answers_source preferences source)

theorem length_faults_le (preferences : ScanPreferences) (source : CharSource) :
    (faults preferences (checker source)).length ≤ 2 * source.size + 2 :=
  (List.length_filterMap_le _ _).trans (length_answers_source preferences source)

/-- A token that is scanned starts within the source, on one of the lines. -/
theorem scanned_le {scanned : ScannedToken}
    (h : scanned ∈ Scan.scanned preferences (checker source)) :
    scanned.token.offset ≤ source.size ∧ scanned.line ≤ maxLine := by
  obtain ⟨before, after, htokens, hline⟩ := scanned_follows h
  obtain ⟨stop, -, hstop, last, hoffset, -, -⟩ := tiles_source htokens
  have hsize := source.length_drain_le
  have hreached : reached 1 (before ++ [scanned.token]) ≤ maxLine := reached_le (by decide) _
  rw [String.length_toList] at hstop
  rw [hline, startLine]
  omega

/-- So is an error that is met, if it points anywhere. -/
theorem fault_le {fault : Fault} (h : fault ∈ faults preferences (checker source)) :
    (∀ offset ∈ fault.error.offset?, offset ≤ source.size) ∧ fault.line ≤ maxLine := by
  obtain ⟨before, after, htokens, hfollows⟩ := fault_follows h
  constructor
  · intro offset hoffset
    obtain ⟨-, stop, htiles, hplace⟩ := offset_of_follows htokens hfollows hoffset
    obtain ⟨other, hother, hle, -⟩ := tiles_source htokens
    obtain rfl := htiles.stop_unique hother
    have hsize := source.length_drain_le
    rw [String.length_toList] at hle hplace
    omega
  · have hline : fault.line = _ := hfollows.line_eq
    rw [hline]
    exact reached_le (by decide) _

theorem count_le {entry : String × Nat} {tokens : List ScannedToken} (h : entry ∈ tally tokens) :
    entry.2 ≤ tokens.length := by
  have hcount := (ascending_tally tokens).mem_iff.1 h
  rw [get?_tally] at hcount
  dsimp only at hcount
  split at hcount
  · cases hcount
  · rw [← Option.some.inj hcount]
    exact List.countP_le_length.trans (Nat.le_of_eq (List.length_map _))

/-- The report of a scan fits, if twice the size of the source does. -/
theorem fits (name : String) (source : CharSource) (preferences : ScanPreferences)
    (session : Log.Session) (hsize : 2 * source.size + 2 ≤ Json.maxCount) :
    (scan name source preferences session).1.Fits := by
  rw [report_eq]
  refine {
    tokens := fun scanned hscanned => ?tokens
    counts := fun entry hentry => ?counts
    ascending := ascending_tally _
    diagnostics := fun d hd => ?diagnostics
    dropped := ?dropped
    lines := ?lines
    characters := ?characters
    elapsedMs := Nat.zero_le _ }
  case tokens =>
    have hmem := List.mem_of_mem_filter (List.mem_toArray.1 hscanned)
    obtain ⟨hoffset, hline⟩ := scanned_le hmem
    exact ⟨show _ ≤ _ by omega, hline⟩
  case counts =>
    have hcount := count_le hentry
    have hlength := length_scanned_le preferences source
    omega
  case diagnostics =>
    obtain ⟨fault, hfault, rfl⟩ := List.mem_map.1 (List.mem_toArray.1 hd)
    obtain ⟨hoffset, hline⟩ := fault_le (List.mem_of_mem_take hfault)
    exact ⟨fun offset h => (hoffset offset h).trans (by omega), hline⟩
  case dropped =>
    have hlength := length_faults_le preferences source
    show (faults preferences (checker source)).length - _ ≤ _
    omega
  case lines =>
    show (left preferences (checker source)).line ≤ maxLine
    rw [(scanned_isPrefix preferences source).2]
    exact reached_le (by decide) _
  case characters =>
    have hpaid : (checker source).Bottom (Tokenizer.Paid source.size) :=
      Nat.le_of_eq (Nat.zero_add source.size)
    have hread := (left_bottom (Tokenizer.keeps_paid _) preferences hpaid).offset_le
    show (left preferences (checker source)).offset ≤ _
    omega

end Scan

end LayeredLexer
