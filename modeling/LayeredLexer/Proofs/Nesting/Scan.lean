/-
Scans of texts and the nesting of their delimiters. A scan that does not
stop at faults in the nesting raises no error over a text exactly if the
delimiters among its symbols are well nested, and it leaves none open.

# The errors of a scan

The scan consumes a balance check. With a token in front the check raises
at most one error, and the token follows it; at the end it raises one for
each delimiter that is open. So the number of errors and what is open go
through a scan as they go through the word of the symbols that the tokens
are (`run_token`, `run_end`), and the word decides (`Nesting.survey`).

# The symbols of a text

A symbol has one character, because the grammar reads it so
(`Reads.symbol_single`). The characters that the check looks at are therefore
those of all symbols.
-/
import LayeredLexer.Proofs.Nesting.WellNested
import LayeredLexer.Proofs.Stream.Yields
import LayeredLexer.Proofs.Scan.Answers

namespace LayeredLexer

-- =============================================================== reports

namespace Report

variable (report : Report)

@[simp] theorem errorCount_recordToken (token : Token) (line : Nat) (keep : Bool) :
    (report.recordToken token line keep).errorCount = report.errorCount := rfl

@[simp] theorem errorCount_recordDiagnostic (d : Diagnostic) (limit : Nat) :
    (report.recordDiagnostic d limit).errorCount = report.errorCount + 1 := by
  unfold recordDiagnostic errorCount
  split
  · show (report.diagnostics.push d).size + report.dropped = _
    rw [Array.size_push, Nat.add_right_comm]
  · rfl

/-- No errors were met if none is kept and none was dropped. -/
theorem errorCount_eq_zero_iff :
    report.errorCount = 0 ↔ report.diagnostics = #[] ∧ report.dropped = 0 := by
  unfold errorCount
  rw [Nat.add_eq_zero_iff, Array.size_eq_zero_iff]

end Report

-- ============================================================ one request

namespace Scan

variable {preferences : ScanPreferences}

/-- Faults in the nesting do not end a scan that is to go on at them. -/
theorem isFinal_balance (hstop : preferences.stopOnBalanceError = false) (error : BalanceError) :
    isFinal preferences (.balance error) = false :=
  isFinal_eq_isFatal hstop (.balance error)

end Scan

-- ============================================================= the check

namespace Nesting

/-- The offset of a character is only told. -/
theorem check_offset (opened : List Bracket) (c : Char) (offset : Nat) :
    (check opened c offset).1 = (check opened c 0).1
      ∧ (check opened c offset).2.toList.length = (check opened c 0).2.toList.length := by
  unfold check
  cases Bracket.ofOpener? c with
  | some b => exact ⟨rfl, rfl⟩
  | none =>
      cases Bracket.ofCloser? c with
      | none => exact ⟨rfl, rfl⟩
      | some b =>
          cases opened with
          | nil => exact ⟨rfl, rfl⟩
          | cons innermost outer =>
              by_cases hmatch : innermost = b
              · simp [hmatch]
              · simp [hmatch]

/-- A token goes through the check as the word that it is, which is its
character or nothing. -/
theorem receive_survey (nesting : Nesting) (token : Token) :
    (nesting.receive token).1.pending = some token
      ∧ (nesting.receive token).1.opened
        = (survey nesting.opened (symbol? token).toList).1
      ∧ (nesting.receive token).2.toList.length
        = (survey nesting.opened (symbol? token).toList).2 := by
  unfold receive
  cases symbol? token with
  | none => exact ⟨rfl, rfl, rfl⟩
  | some c =>
      obtain ⟨hopened, hfault⟩ := check_offset nesting.opened c token.offset
      exact ⟨rfl, hopened, hfault⟩

/-- A word goes through in pieces. -/
theorem survey_append (opened : List Bracket) (word more : List Char) :
    survey opened (word ++ more)
      = ((survey (survey opened word).1 more).1,
          (survey opened word).2 + (survey (survey opened word).1 more).2) := by
  induction word generalizing opened with
  | nil =>
      show _ = (_, 0 + _)
      rw [Nat.zero_add]
      rfl
  | cons c word ih =>
      rw [List.cons_append, survey_cons, ih, survey_cons, Nat.add_assoc]

end Nesting

-- ============================================================== the scan

namespace Scan

variable {preferences : ScanPreferences} {inner : Stream} {tokens : List Token}

/-- With a token in front of a check that holds none, a scan takes the
token and meets the errors that the token is worth. -/
theorem run_token (hstop : preferences.stopOnBalanceError = false) (nesting : Nesting)
    (hpending : nesting.pending = none) {token : Token}
    (hshown : inner.peek.result = .ok (some token)) (report : Report)
    (logged : Array Log.Event) :
    ∃ nesting' report' logged',
      run preferences (.balance nesting inner) report logged
          = run preferences (.balance nesting' inner.peek.stream.drop) report' logged'
        ∧ nesting'.pending = none
        ∧ nesting'.opened = (Nesting.survey nesting.opened (Nesting.symbol? token).toList).1
        ∧ report'.errorCount = report.errorCount
          + (Nesting.survey nesting.opened (Nesting.symbol? token).toList).2 := by
  obtain ⟨hheld, hopened, hfaults⟩ := nesting.receive_survey token
  have hpeek := Stream.peek_balance_token hpending hshown
  generalize hverdict : nesting.receive token = verdict at hheld hopened hfaults hpeek
  obtain ⟨nesting', fault⟩ := verdict
  cases fault with
  | none =>
      have hresult : (Stream.balance nesting inner).peek.result = .ok (some token) := by
        rw [hpeek]
        rfl
      have hconsume := Stream.consume_of_peek_token hresult
      rw [hpeek] at hconsume
      refine ⟨{ nesting' with pending := none }, _, _, run_ok hconsume, rfl, hopened, ?_⟩
      rw [Report.errorCount_recordToken, ← hfaults]
      rfl
  | some error =>
      -- the error comes first, and the next request takes the token
      have hresult : (Stream.balance nesting inner).peek.result = .error (.balance error) := by
        rw [hpeek]
        rfl
      have hconsume := Stream.consume_of_peek_error hresult
      rw [hpeek] at hconsume
      have hfault := @run_error preferences _ _ report logged _ _ hconsume (by simp)
        (isFinal_balance hstop error)
      refine ⟨{ nesting' with pending := none }, _, _,
        hfault.trans (run_ok (Stream.consume_balance_held hheld)), rfl, hopened, ?_⟩
      rw [Report.errorCount_recordToken, Report.errorCount_recordDiagnostic, ← hfaults]
      rfl

/-- At the end a scan meets one error for each delimiter that is open, and
none is open then. -/
theorem run_end (hstop : preferences.stopOnBalanceError = false) (nesting : Nesting)
    (hpending : nesting.pending = none) (hend : inner.peek.result = .ok none) (report : Report)
    (logged : Array Log.Event) :
    (run preferences (.balance nesting inner) report logged).1.depth = 0
      ∧ (run preferences (.balance nesting inner) report logged).2.1.errorCount
        = report.errorCount + nesting.opened.length := by
  -- each request takes one opener off
  induction hopened : nesting.opened generalizing nesting inner report logged with
  | nil =>
      have hpeek : (Stream.balance nesting inner).peek
          = ⟨.ok none, .balance nesting inner.peek.stream, inner.peek.events⟩ := by
        rw [Stream.peek_balance_end hpending hend, Nesting.close, hopened]
        rfl
      have hconsume := Stream.consume_of_peek_end (congrArg Answer.result hpeek)
      rw [hpeek] at hconsume
      rw [run_over hconsume]
      exact ⟨congrArg List.length hopened, rfl⟩
  | cons innermost outer ih =>
      obtain ⟨nesting', error, hclose, hpending', hopened'⟩ : ∃ nesting' error,
          nesting.close = (nesting', some error) ∧ nesting'.pending = none
            ∧ nesting'.opened = outer := by
        unfold Nesting.close
        rw [hopened]
        exact ⟨_, _, rfl, hpending, rfl⟩
      have hpeek : (Stream.balance nesting inner).peek
          = ⟨.error (.balance error), .balance nesting' inner.peek.stream,
              inner.peek.events
                ++ [nesting'.report error inner.peek.stream.offset inner.peek.stream.line]⟩ := by
        rw [Stream.peek_balance_end hpending hend, hclose]
        rfl
      have hconsume := Stream.consume_of_peek_error (congrArg Answer.result hpeek)
      rw [hpeek] at hconsume
      have hstays : inner.peek.stream.peek.result = .ok none := by
        rw [Stream.peek_peek_end hend]
      rw [run_error hconsume (by simp) (isFinal_balance hstop error)]
      obtain ⟨hdepth, hcount⟩ := ih nesting' hpending' hstays _ _ hopened'
      refine ⟨hdepth, ?_⟩
      rw [hcount, Report.errorCount_recordDiagnostic, List.length_cons]
      omega

/-- A scan over tokens meets the errors of the word of their symbols, and
one for each delimiter that the word leaves open. -/
theorem run_yields (hstop : preferences.stopOnBalanceError = false) (nesting : Nesting)
    (hpending : nesting.pending = none) (hinner : inner.Yields tokens) (report : Report)
    (logged : Array Log.Event) :
    (run preferences (.balance nesting inner) report logged).1.depth = 0
      ∧ (run preferences (.balance nesting inner) report logged).2.1.errorCount
        = report.errorCount
          + (Nesting.survey nesting.opened (tokens.filterMap Nesting.symbol?)).2
          + (Nesting.survey nesting.opened (tokens.filterMap Nesting.symbol?)).1.length := by
  induction tokens generalizing nesting inner report logged with
  | nil => exact run_end hstop nesting hpending hinner report logged
  | cons token rest ih =>
      obtain ⟨hshown, hrest⟩ := hinner
      obtain ⟨nesting', report', logged', hrun, hpending', hopened', hcount'⟩ :=
        run_token hstop nesting hpending hshown report logged
      obtain ⟨hdepth, hcount⟩ := ih nesting' hpending' hrest report' logged'
      have hword : (token :: rest).filterMap Nesting.symbol?
          = (Nesting.symbol? token).toList ++ rest.filterMap Nesting.symbol? := by
        rw [List.filterMap_cons]
        cases Nesting.symbol? token <;> rfl
      rw [hrun, hword, Nesting.survey_append, ← hopened']
      refine ⟨hdepth, ?_⟩
      rw [hcount, hcount', Nat.add_assoc report.errorCount]

end Scan

-- ====================================================== symbols of a text

/-- The grammar reads one character as a symbol. -/
theorem Reads.symbol_single {rest text : List Char} (h : Reads rest (.token .symbol text)) :
    ∃ c, text = [c] := by
  cases h
  exact ⟨_, rfl⟩

/-- So a symbol that a text delivers has one. -/
theorem Delivery.symbols_single (offset : Nat) (cs : List Char) :
    ∀ token ∈ (ofText offset cs).tokens, token.kind = .symbol →
      ∃ c, token.text.toList = [c] := by
  fun_induction ofText offset cs with
  | case1 offset => simp
  | case2 offset cs hmore s token hread ih =>
      intro other hother hkind
      rcases List.mem_cons.1 hother with rfl | hother
      · have hreads : Reads cs s.lexeme := (reads_iff hmore _).2 rfl
        cases hlexeme : s.lexeme with
        | token kind text =>
            rw [hlexeme] at hread hreads
            cases hread
            obtain rfl : kind = .symbol := hkind
            obtain ⟨c, rfl⟩ := hreads.symbol_single
            exact ⟨c, String.toList_ofList⟩
        | openComment | openQuote => rw [hlexeme] at hread; cases hread
      · exact ih other hother hkind
  | case3 offset cs hmore s error hread => simp

/-- The characters of the symbols among tokens. -/
def symbolChars (tokens : List Token) : List Char :=
  (tokens.filter (·.kind = .symbol)).flatMap (·.text.toList)

theorem filterMap_symbol {tokens : List Token}
    (h : ∀ token ∈ tokens, token.kind = .symbol → ∃ c, token.text.toList = [c]) :
    tokens.filterMap Nesting.symbol? = symbolChars tokens := by
  induction tokens with
  | nil => rfl
  | cons token rest ih =>
      have ih := ih fun other hother => h other (List.mem_cons_of_mem _ hother)
      by_cases hkind : token.kind = .symbol
      · obtain ⟨c, hc⟩ := h token List.mem_cons_self hkind
        have hsymbol : Nesting.symbol? token = some c := by
          simp [Nesting.symbol?, hkind, Token.character?, hc]
        rw [List.filterMap_cons_some hsymbol, ih, symbolChars, symbolChars,
          List.filter_cons_of_pos (by simpa using hkind), List.flatMap_cons, hc]
        rfl
      · have hsymbol : Nesting.symbol? token = none := by
          simp [Nesting.symbol?, hkind]
        rw [List.filterMap_cons_none hsymbol, ih, symbolChars, symbolChars,
          List.filter_cons_of_neg (by simpa using hkind)]

-- ========================================================= the main result

/-- A scan of a text that lexes meets the errors of the word of its
symbols. -/
theorem Scan.run_text {text : String} {preferences : ScanPreferences}
    (hstop : preferences.stopOnBalanceError = false)
    (hlexes : (Stream.ofSource (.ofString text)).delivered.last = .endOfInput) (name : String) :
    let word := symbolChars (Stream.ofSource (.ofString text)).delivered.tokens
    let checker := run preferences (checker (.ofString text)) (.initial name) #[]
    checker.1.depth = 0
      ∧ checker.2.1.errorCount = (Nesting.survey [] word).2 + (Nesting.survey [] word).1.length := by
  have hsymbols : ∀ token ∈ (Stream.ofSource (.ofString text)).delivered.tokens,
      token.kind = .symbol → ∃ c, token.text.toList = [c] := by
    rw [Stream.delivered_ofString]
    exact Delivery.symbols_single 0 text.toList
  have hyields : (Stream.ofSource (.ofString text)).Yields
      (Stream.ofSource (.ofString text)).delivered.tokens := Stream.yields_delivered hlexes
  obtain ⟨hdepth, hcount⟩ := run_yields hstop {} rfl (hyields.lines 1) (.initial name) #[]
  rw [filterMap_symbol hsymbols] at hcount
  refine ⟨hdepth, hcount.trans ?_⟩
  show 0 + _ + _ = _
  rw [Nat.zero_add]

/-- A scan of a text that goes on at faults in the nesting raises no error
exactly if the delimiters among the symbols of the text are well nested;
and whatever it raised, no delimiter is open behind it. -/
theorem scan_accepts_iff (name text : String) (preferences : ScanPreferences)
    (session : Log.Session) (hstop : preferences.stopOnBalanceError = false)
    (hlexes : (Stream.ofSource (.ofString text)).delivered.last = .endOfInput) :
    let report := (scan name (.ofString text) preferences session).1
    let checker := Scan.run preferences (Scan.checker (.ofString text)) (.initial name) #[]
    let word := symbolChars (Stream.ofSource (.ofString text)).delivered.tokens
    (report.diagnostics = #[] ∧ report.dropped = 0 ↔ WellNested (word.filter (· ∈ delimiters)))
      ∧ checker.1.depth = 0 := by
  intro report checker word
  obtain ⟨hdepth, hcount⟩ := Scan.run_text hstop hlexes name
  refine ⟨?_, hdepth⟩
  have hreport : report.errorCount = checker.2.1.errorCount := rfl
  rw [← Report.errorCount_eq_zero_iff, hreport, hcount, ← Nesting.clean_iff, Prod.ext_iff,
    Nat.add_eq_zero_iff, List.length_eq_zero_iff, and_comm]

/-- Preferences to keep one error and to go on at faults. -/
def keepOne : ScanPreferences := ⟨false, false, 1⟩

/-- With delimiters in a comment and in a quote, which do not count. -/
theorem scan_accepts_iff_nested :
    let text := "f(a[0]) /* ] */ ')'"
    let report := (scan "nested" (.ofString text) keepOne {}).1
    let checker := Scan.run keepOne (Scan.checker (.ofString text)) (.initial "nested") #[]
    keepOne.stopOnBalanceError = false
      ∧ (Stream.ofSource (.ofString text)).delivered.last = .endOfInput
      ∧ (report.diagnostics = #[] ∧ report.dropped = 0) ∧ checker.1.depth = 0 := by
  intro text report checker
  have hlexes : (Stream.ofSource (.ofString text)).delivered.last = .endOfInput := by
    rw [Stream.delivered_ofString]
    decide +kernel
  have hword : (symbolChars (Stream.ofSource (.ofString text)).delivered.tokens).filter
      (· ∈ delimiters) = ['(', '[', ']', ')'] := by
    rw [Stream.delivered_ofString]
    decide +kernel
  have hnested : WellNested ['(', '[', ']', ')'] :=
    .group .round (.group .square .empty .empty) .empty
  obtain ⟨haccepts, hdepth⟩ := scan_accepts_iff "nested" text keepOne {} rfl hlexes
  exact ⟨rfl, hlexes, haccepts.2 (hword ▸ hnested), hdepth⟩

end LayeredLexer
