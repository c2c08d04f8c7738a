/-
The lines of a report, counted in the text. A line is one more than the
number of line ends before a place, and the line ends inside quotes do not
count. The report has the lines from a counter that knows nothing of the
text: it adds up the line ends of the blanks and comments that pass, when
they are pulled, and the scan takes those of the token itself off again.

# From the counter to the text

A counter that stays at its greatest value once it has reached it still
adds up correctly, since it only grows (`reached_eq`). And as long as the
text has fewer line ends than that, it does not get there.

# Errors

An error has the line of the tokens before it, and its offset is where
these end, or where what comes behind them does: a failure of the source
is met behind the last character, which can be far inside of a quote or a
comment that is still open. No token covers these characters, and the
counter has not seen them. For an open quote that is as it should be. For
an open comment the line is the one where the comment begins.
-/
import LayeredLexer.Proofs.Lexer.CutShort
import LayeredLexer.Proofs.Lexer.LineEnds
import LayeredLexer.Proofs.Scan.Course

namespace LayeredLexer

-- ============================================================= the counter

theorem Token.lineEnds_eq (token : Token) :
    token.lineEnds = min (triviaLineEnds [token]) maxLine := by
  rw [lineEnds, triviaLineEnds_singleton]
  split
  · rfl
  · exact (Nat.zero_min _).symm

/-- The line behind some tokens counts the line ends of the blanks and
comments among them, up to the greatest line. -/
theorem reached_eq {line : Nat} (hline : line ≤ maxLine) (tokens : List Token) :
    reached line tokens = min (line + triviaLineEnds tokens) maxLine := by
  induction tokens generalizing line with
  | nil => exact (Nat.min_eq_left hline).symm
  | cons token rest ih =>
      have hsum : triviaLineEnds (token :: rest) = triviaLineEnds [token] + triviaLineEnds rest :=
        triviaLineEnds_append [token] rest
      have hbehind : token.behind line
          = min (line + min (triviaLineEnds [token]) maxLine) maxLine := by
        rw [Token.behind, Token.lineEnds_eq]
      have hbound : token.behind line ≤ maxLine := Nat.min_le_right _ _
      show reached (token.behind line) rest = _
      rw [ih hbound, hbehind, hsum]
      omega

namespace Scan

-- ============================================================== the source

section Source

variable {source : CharSource} {before after : List Token}

/-- The first tokens of a source tile the front of its text. -/
theorem tiles_source (htokens : (Stream.ofSource source).delivered.tokens = before ++ after) :
    ∃ stop, Tiles 0 before stop ∧ stop ≤ source.drain.1.toList.length
      ∧ ∃ last, Tiles stop after last := by
  obtain ⟨last, hall, -, -, hlast⟩ := Delivery.ofText_tiles 0 source.drain.1.toList
  rw [← Stream.tokens_delivered, htokens] at hall
  obtain ⟨stop, hbefore, hafter⟩ := hall.append
  have hle := hafter.le
  exact ⟨stop, hbefore, by omega, last, hafter⟩

/-- The line behind the first tokens of a source with fewer line ends than
lines can be counted. -/
theorem reached_source (hlines : source.drain.1.toList.count '\n' < maxLine)
    (htokens : (Stream.ofSource source).delivered.tokens = before ++ after) :
    reached 1 before = 1 + triviaLineEnds before := by
  obtain ⟨stop, htiles, -⟩ := tiles_source htokens
  have hcount := lineEndsBefore_tokens (Stream.tokens_delivered source ▸ htokens) htiles
  have hle := @lineEndsBefore_le source.drain.1 (inQuote (before ++ after)) stop
  rw [reached_eq (by decide)]
  omega

-- ============================================================== the tokens

/-- The line of a token that is scanned is the one of its offset. -/
theorem scanned_line {preferences : ScanPreferences}
    (hlines : source.drain.1.toList.count '\n' < maxLine) {scanned : ScannedToken}
    (h : scanned ∈ Scan.scanned preferences (checker source)) :
    scanned.line = 1 + lineEndsBefore source.drain.1 scanned.token.offset
      (inQuote (Stream.ofSource source).delivered.tokens) := by
  obtain ⟨before, after, htokens, hline⟩ := scanned_follows h
  obtain ⟨stop, htiles, -, last, hoffset, -, -⟩ := tiles_source htokens
  have hcount := lineEndsBefore_tokens (Stream.tokens_delivered source ▸ htokens) htiles
  have hbehind := @reached_source source (before ++ [scanned.token]) after hlines
    (by simpa using htokens)
  rw [triviaLineEnds_append] at hbehind
  have hown := scanned.token.lineEnds_eq
  have hle := hbehind ▸ reached_le (by decide) (before ++ [scanned.token])
  rw [hline, startLine, hbehind, hoffset, htokens, hcount]
  omega

-- ============================================================== the errors

/-- What comes last points at the end of the tokens, or further behind. -/
theorem offset_of_last {stop offset : Nat}
    (htiles : Tiles 0 (Stream.ofSource source).delivered.tokens stop)
    (hoffset : (Stream.ofSource source).delivered.last.offset? = some offset) :
    stop ≤ offset ∧ offset ≤ source.drain.1.toList.length := by
  obtain ⟨last, hall, -, -, hlast⟩ := Delivery.ofText_tiles 0 source.drain.1.toList
  rw [Stream.tokens_delivered] at htiles
  obtain rfl := hall.stop_unique htiles
  have hle : last ≤ source.drain.1.toList.length := by omega
  rw [Stream.delivered_eq_cutBy] at hoffset
  cases hfailure : source.drain.2.1 with
  | none =>
      rw [hfailure, Delivery.cutBy] at hoffset
      rcases hlast with ⟨hend, -⟩ | ⟨hbefore, hquote | hcomment⟩
      · rw [hend] at hoffset
        cases hoffset
      · rw [hquote] at hoffset
        cases hoffset
        exact ⟨Nat.le_refl _, hle⟩
      · rw [hcomment] at hoffset
        cases hoffset
        exact ⟨Nat.le_refl _, hle⟩
  | some cause =>
      rw [hfailure, Delivery.cutBy] at hoffset
      cases hoffset
      exact ⟨hle, Nat.le_refl _⟩

/-- An error that comes behind some tokens has the line behind them, and
it points at where they end, or further behind if they are all. -/
theorem offset_of_follows {error : LexError} {line offset : Nat}
    (htokens : (Stream.ofSource source).delivered.tokens = before ++ after)
    (hfollows : Follows (Stream.ofSource source).delivered.last 1 before after
      (.raises error line))
    (hoffset : error.offset? = some offset) :
    line = reached 1 before ∧ ∃ stop, Tiles 0 before stop
      ∧ (offset = stop
        ∨ after = [] ∧ stop ≤ offset ∧ offset ≤ source.drain.1.toList.length) := by
  obtain ⟨stop, htiles, -, last, hafter⟩ := tiles_source htokens
  generalize hstep : Step.raises error line = step at hfollows
  cases hfollows with
  | token token rest => cases hstep
  | fault rest hfault =>
      cases hstep
      obtain ⟨-, hplace⟩ := Nesting.symbol_of_fault hfault
      obtain rfl := Option.some.inj (hplace.symm.trans hoffset)
      exact ⟨rfl, stop, htiles, .inl hafter.1⟩
  | unclosed bracket hend =>
      cases hstep
      cases hoffset
  | last =>
      cases hstep
      rw [List.append_nil] at htokens
      exact ⟨rfl, stop, htiles, .inr ⟨rfl, offset_of_last (htokens ▸ htiles) hoffset⟩⟩

/-- The line of an error that is met is the one of its offset, if what is
never closed is left out. -/
theorem fault_line {preferences : ScanPreferences}
    (hlines : source.drain.1.toList.count '\n' < maxLine) {fault : Fault}
    (h : fault ∈ faults preferences (checker source)) {offset : Nat}
    (hoffset : fault.error.offset? = some offset) :
    fault.line = 1 + lineEndsBefore source.drain.1 offset fun i =>
      (Delivery.ofText 0 source.drain.1.toList).inLiteral i
        || (Delivery.ofText 0 source.drain.1.toList).inOpenComment i := by
  obtain ⟨before, after, htokens, hfollows⟩ := fault_follows h
  obtain ⟨hline, stop, htiles, hplace⟩ := offset_of_follows htokens hfollows hoffset
  rw [hline, reached_source hlines htokens,
    lineEndsBefore_open (Stream.tokens_delivered source ▸ htokens) htiles hplace]

end Source

end Scan

-- ======================================================== the main results

/-- The lines of a report are exact, unless the source has more line ends
than lines can be counted. The line of a token is one more than the number
of line ends before it that lie in no quote, however the scan ended and
whatever errors came before; and the number of lines is one more than the
number of line ends in the blanks and comments that the scan was given.
These tokens, which are the ones that are counted, are the first tokens of
the source. -/
theorem scan_lines (name : String) (source : CharSource) (preferences : ScanPreferences)
    (session : Log.Session) (hlines : source.drain.1.toList.count '\n' < maxLine) :
    let report := (scan name source preferences session).1
    let tokens := (Stream.ofSource source).delivered.tokens
    let given := Scan.scanned preferences (Scan.checker source)
    (∀ scanned ∈ report.tokens,
        scanned.line
          = 1 + lineEndsBefore source.drain.1 scanned.token.offset (inQuote tokens))
      ∧ report.lines = 1 + triviaLineEnds (given.map (·.token))
      ∧ report.counts = tally given
      ∧ given.map (·.token) <+: tokens := by
  intro report tokens given
  obtain ⟨hpart, hline⟩ := Scan.scanned_isPrefix preferences source
  have hreport : report = _ := Scan.report_eq name source preferences session
  rw [hreport]
  refine ⟨?_, ?_, rfl, hpart⟩
  · intro scanned hscanned
    have hkept : scanned ∈ given.filter (Scan.keeps preferences) := List.mem_toArray.1 hscanned
    exact Scan.scanned_line hlines (List.mem_of_mem_filter hkept)
  · obtain ⟨others, htokens⟩ := hpart
    show (Scan.left preferences (Scan.checker source)).line = _
    rw [hline, Scan.reached_source hlines htokens.symm]

/-- A comment and a quote with line ends, and a stray closer that the scan
stops at. -/
theorem scan_lines_stopped :
    let source := CharSource.ofString "a\n\"b\nc\" /*\n*/ d\n) e"
    let report := (scan "stopped" source ⟨true, true, 1⟩ {}).1
    let tokens := (Stream.ofSource source).delivered.tokens
    let given := Scan.scanned ⟨true, true, 1⟩ (Scan.checker source)
    source.drain.1.toList.count '\n' < maxLine
      ∧ report.tokens.map (·.line) = #[1, 1, 2, 2, 2, 3, 3, 3]
      ∧ ((∀ scanned ∈ report.tokens,
          scanned.line
            = 1 + lineEndsBefore source.drain.1 scanned.token.offset (inQuote tokens))
        ∧ report.lines = 1 + triviaLineEnds (given.map (·.token))
        ∧ report.counts = tally given
        ∧ given.map (·.token) <+: tokens) := by
  intro source report tokens given
  have hlines : source.drain.1.toList.count '\n' < maxLine := by decide +kernel
  refine ⟨hlines, ?_, scan_lines "stopped" source ⟨true, true, 1⟩ {} hlines⟩
  decide +kernel

/-- The line of a diagnostic is the one of its offset, where the source has
no more line ends than lines can be counted: one more than the number of
line ends before the offset that lie in no quoted literal, closed or open,
and in no comment that is still open. -/
theorem diagnostic_lines (name : String) (source : CharSource) (preferences : ScanPreferences)
    (session : Log.Session) (hlines : source.drain.1.toList.count '\n' < maxLine) :
    let text := source.drain.1
    let whole := (Stream.ofSource (.ofString text)).delivered
    ∀ d ∈ (scan name source preferences session).1.diagnostics, ∀ offset, d.offset = some offset →
      d.line
        = 1 + lineEndsBefore text offset fun i => whole.inLiteral i || whole.inOpenComment i := by
  intro text whole d hd offset hoffset
  have hwhole : whole = .ofText 0 text.toList :=
    Stream.delivered_over (Tokenizer.over_ofSource text) rfl
  rw [Scan.report_eq] at hd
  obtain ⟨fault, hfault, rfl⟩ := List.mem_map.1 (List.mem_toArray.1 hd)
  rw [hwhole]
  exact Scan.fault_line hlines (List.mem_of_mem_take hfault) hoffset

/-- The bytes of an open comment with a line end, and one that begins no
character. -/
def cutComment : CharSource := .ofDevice (.ofBytes [0x2F, 0x2A, 0x0A, 0xFF])

/-- The line end in an open comment counts for nothing, also if the error
is behind it. -/
theorem diagnostic_lines_cut_comment :
    let text := cutComment.drain.1
    let whole := (Stream.ofSource (.ofString text)).delivered
    text.toList.count '\n' < maxLine
      ∧ ∀ d ∈ (scan "cut" cutComment ⟨false, false, 5⟩ {}).1.diagnostics,
        ∀ offset, d.offset = some offset →
          d.line
            = 1 + lineEndsBefore text offset fun i => whole.inLiteral i || whole.inOpenComment i := by
  intro text whole
  have hlines : cutComment.drain.1.toList.count '\n' < maxLine := by decide +kernel
  exact ⟨hlines, diagnostic_lines "cut" cutComment ⟨false, false, 5⟩ {} hlines⟩

/-- So it is not enough to leave quoted literals out. -/
theorem line_not_of_offset :
    let text := cutComment.drain.1
    let whole := (Stream.ofSource (.ofString text)).delivered
    text.toList.count '\n' < maxLine
      ∧ ¬ ∀ d ∈ (scan "cut" cutComment ⟨false, false, 5⟩ {}).1.diagnostics,
        ∀ offset, d.offset = some offset →
          d.line = 1 + lineEndsBefore text offset whole.inLiteral := by
  intro text whole
  refine ⟨by decide +kernel, fun h => ?_⟩
  have hwhole : whole = .ofText 0 text.toList :=
    Stream.delivered_over (Tokenizer.over_ofSource text) rfl
  obtain ⟨d, hd, hoffset, hline⟩ :
      ∃ d ∈ (scan "cut" cutComment ⟨false, false, 5⟩ {}).1.diagnostics,
        d.offset = some 3 ∧ d.line = 1 := by
    decide +kernel
  have hcount : lineEndsBefore text 3 whole.inLiteral = 1 := by
    rw [hwhole]
    decide +kernel
  have hsame := h d hd 3 hoffset
  rw [hline, hcount] at hsame
  cases hsame

end LayeredLexer
