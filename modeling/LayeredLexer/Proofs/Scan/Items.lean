/-
A scan and an iterator see the same. A scan asks its balance check for one
token after the other, and stops at the end of the input or at an error
that is final for it. An iterator looks first, and takes the token if there
is one. Where it finds the end it stops, and an error that was raised by
the look is its item, because a look consumes the error.

# Why the two agree

A look and a request after it come to the request alone, since a layer
holds what a look has shown. So each item is the answer to one request
(`next_of_consume_ok`, `next_of_consume_error`), and both loops go on from
the same stream. What is left are the two ends: the answer that there is
no more input is no item, and a failure is the last one. If the scan does
not stop at faults in the nesting, nothing else ends it.

# The counts

A report counts the kinds under their names, in a dictionary whose names
ascend. That they do is what makes the count that is raised the one that
is found (`get?_tally`).
-/
import LayeredLexer.Proofs.Stream.Draining

namespace LayeredLexer

-- ================================================================ the counts

theorem tally_concat (tokens : List ScannedToken) (scanned : ScannedToken) :
    tally (tokens ++ [scanned])
      = (tally tokens).alter scanned.token.kind.name fun count => count.getD 0 + 1 := by
  unfold tally
  rw [List.foldl_append]
  rfl

theorem ascending_tally (tokens : List ScannedToken) : (tally tokens).Ascending := by
  induction tokens using List.reverseRecOn with
  | nil => exact Dictionary.ascending_nil
  | append_singleton tokens scanned ih =>
      rw [tally_concat]
      exact ih.alter _ _

/-- The count under a name is that of the tokens whose kind has the name,
and there is none if there are no such tokens. -/
theorem get?_tally (name : String) (tokens : List ScannedToken) :
    (tally tokens).get? name
      = let count := (tokens.map (·.token)).countP fun token => token.kind.name == name
        if count = 0 then none else some count := by
  induction tokens using List.reverseRecOn with
  | nil => rfl
  | append_singleton tokens scanned ih =>
      rw [tally_concat, List.map_append, List.countP_append, List.map_singleton,
        List.countP_singleton]
      by_cases hname : scanned.token.kind.name = name
      · rw [← hname] at ih ⊢
        rw [Dictionary.get?_alter_self (ascending_tally tokens), ih]
        dsimp only
        split <;> simp_all
      · rw [Dictionary.get?_alter_of_ne hname, ih, beq_false_of_ne hname]
        rfl

-- ================================================================= the items

namespace Drain

/-- The tokens among the items. -/
def tokens (drain : Drain) : List Token := drain.items.filterMap Except.toOption

/-- The errors among them. -/
def errors (drain : Drain) : List LexError :=
  drain.items.filterMap fun
    | .ok _ => none
    | .error error => some error

/-- The stream when it is drained. -/
def left (drain : Drain) : Stream := drain.all.2.1.stream

variable {drain rest : Drain} {item : Item} {events : List Log.Event} {s : Stream}

theorem mem_errors {error : LexError} : error ∈ drain.errors ↔ .error error ∈ drain.items := by
  unfold errors
  rw [List.mem_filterMap]
  constructor
  · rintro ⟨item, hitem, herror⟩
    cases item with
    | ok token => cases herror
    | error raised =>
        cases herror
        exact hitem
  · intro h
    exact ⟨_, h, rfl⟩

/-- What was collected before makes no difference to the stream. -/
theorem all_stream (drain : Drain) (before : Array Item) (logged : Array Log.Event) :
    (drain.all before logged).2.1.stream = drain.left := by
  induction drain using drainInduction generalizing before logged with
  | ended drain rest events hnext =>
      unfold left
      rw [all_over hnext, all_over hnext]
  | more drain item rest events hnext ih =>
      unfold left
      rw [all_more hnext, all_more hnext, ih, ih]

theorem left_over (h : drain.next = (none, rest, events)) : drain.left = rest.stream := by
  unfold left
  rw [all_over h]

theorem left_more (h : drain.next = (some item, rest, events)) : drain.left = rest.left := by
  unfold left
  rw [all_more h, all_stream]
  rfl

-- ============================================================ one item, asked

/-- The next item is what a request for a token is answered with. -/
theorem next_of_consume_ok {token : Token} (h : s.consume.result = .ok token) :
    next ⟨s, false⟩ = (some (.ok token), ⟨s.consume.stream, false⟩, s.consume.events) := by
  rcases hpeek : s.peek.result with error | _ | shown
  · rw [Stream.consume_of_peek_error hpeek] at h
    cases h
  · rw [Stream.consume_of_peek_end hpeek] at h
    cases h
  · rw [Stream.consume_of_peek_token hpeek] at h ⊢
    cases h
    exact next_of_peek_token hpeek

theorem next_of_consume_error {error : LexError} (h : s.consume.result = .error error)
    (hend : error ≠ .endOfInput) :
    next ⟨s, false⟩
      = (some (.error error), ⟨s.consume.stream, error.isFatal⟩, s.consume.events) := by
  rcases hpeek : s.peek.result with raised | _ | shown
  · rw [Stream.consume_of_peek_error hpeek] at h ⊢
    cases h
    exact next_of_peek_error hpeek
  · rw [Stream.consume_of_peek_end hpeek] at h
    cases h
    exact absurd rfl hend
  · rw [Stream.consume_of_peek_token hpeek] at h
    cases h

/-- Over a tokenizer, only the end itself is answered as the end. -/
theorem next_of_consume_end (hbottom : s.Bottom fun _ => True)
    (h : s.consume.result = .error .endOfInput) :
    next ⟨s, false⟩ = (none, ⟨s.consume.stream, true⟩, s.consume.events) := by
  rcases hpeek : s.peek.result with raised | _ | shown
  · rw [Stream.consume_of_peek_error hpeek] at h
    cases h
    rcases Stream.peek_error hbottom hpeek with hfatal | hbalance
    · cases hfatal
    · cases hbalance
  · rw [Stream.consume_of_peek_end hpeek]
    exact next_of_peek_end hpeek
  · rw [Stream.consume_of_peek_token hpeek] at h
    cases h

/-- The last item is a failure if there is one at all. -/
theorem failed_iff (drain : Drain) (hbottom : drain.stream.Bottom fun _ => True) :
    (∃ error, drain.items.getLast? = some (.error error) ∧ error.isFatal = true)
      ↔ ∃ error ∈ drain.errors, error.isFatal = true := by
  constructor
  · rintro ⟨error, hlast, hfatal⟩
    exact ⟨error, mem_errors.2 (List.mem_of_getLast? hlast), hfatal⟩
  · rintro ⟨error, herror, hfatal⟩
    obtain ⟨k, hk⟩ := List.getElem?_of_mem (mem_errors.1 herror)
    have hlast := failure_last hbottom hk hfatal
    refine ⟨error, ?_, hfatal⟩
    rw [List.getLast?_eq_getElem?, ← hlast, Nat.add_sub_cancel, hk]

end Drain

-- ============================================================= the two loops

namespace Scan

variable {preferences : ScanPreferences} {s : Stream}

/-- The item that an answer is, if it is not the end. -/
def item? (answer : Answer Token) : Option Item :=
  match answer.result with
  | .ok token => some (.ok token)
  | .error error => if error = .endOfInput then none else some (.error error)

/-- A scan that goes on at faults in the nesting is answered with the items
of an iterator, and with the end behind them if no failure was the last.
Both leave the stream in one state. -/
theorem answers_drained (hlenient : preferences.stopOnBalanceError = false)
    (hbottom : s.Bottom fun _ => True) :
    (answers preferences s).filterMap item? = Drain.items ⟨s, false⟩
      ∧ left preferences s = Drain.left ⟨s, false⟩ := by
  have hfinal (error : LexError) := isFinal_eq_isFatal hlenient error
  induction s using answers.induct preferences with
  | case1 s hgo ih =>
      obtain ⟨hitems, hleft⟩ := ih hbottom.consume
      rw [answers_of_goesOn hgo, left_of_goesOn hgo, List.filterMap_cons, hitems, hleft]
      cases hresult : s.consume.result with
      | ok token =>
          have hnext := Drain.next_of_consume_ok hresult
          rw [Drain.items_more hnext, Drain.left_more hnext, item?, hresult]
          exact ⟨rfl, rfl⟩
      | error error =>
          rw [hresult, goesOn_error_iff, hfinal] at hgo
          have hnext := Drain.next_of_consume_error hresult hgo.1
          rw [hgo.2] at hnext
          rw [Drain.items_more hnext, Drain.left_more hnext, item?, hresult]
          dsimp only
          rw [if_neg hgo.1]
          exact ⟨rfl, rfl⟩
  | case2 s hstop =>
      have hstop := eq_false_of_ne_true hstop
      rw [answers_of_stops hstop, left_of_stops hstop]
      cases hresult : s.consume.result with
      | ok token =>
          rw [hresult] at hstop
          cases hstop
      | error error =>
          by_cases hend : error = .endOfInput
          · rw [hend] at hresult
            have hnext := Drain.next_of_consume_end hbottom hresult
            rw [Drain.items_over hnext, Drain.left_over hnext]
            simp [item?, hresult]
          · -- what ends the scan is fatal, so the iterator is finished too
            have hfatal : error.isFatal = true := by
              rw [hresult] at hstop
              simpa [goesOn, hend, hfinal] using hstop
            have hnext := Drain.next_of_consume_error hresult hend
            rw [hfatal] at hnext
            have hover : Drain.next ⟨s.consume.stream, true⟩ = _ := Drain.next_finished rfl
            rw [Drain.items_more hnext, Drain.left_more hnext, Drain.items_over hover,
              Drain.left_over hover]
            simp [item?, hresult, hend]

/-- What is read off the answers, and off the items in the same way, is the
same. -/
theorem filterMap_drained {α β : Type} {read : Answer Token → Option α} {view : α → β}
    {readItem : Item → Option β} (hread : ∀ answer,
      (read answer).map view = (item? answer).bind readItem)
    (hlenient : preferences.stopOnBalanceError = false) (hbottom : s.Bottom fun _ => True) :
    ((answers preferences s).filterMap read).map view
      = (Drain.items ⟨s, false⟩).filterMap readItem := by
  rw [← (answers_drained hlenient hbottom).1, List.map_filterMap, List.filterMap_filterMap]
  apply List.filterMap_congr
  intro answer _
  exact hread answer

theorem tokens_drained (hlenient : preferences.stopOnBalanceError = false)
    (hbottom : s.Bottom fun _ => True) :
    (scanned preferences s).map (·.token) = Drain.tokens ⟨s, false⟩ := by
  apply filterMap_drained _ hlenient hbottom
  intro answer
  unfold scanned? item?
  cases answer.result with
  | ok token => rfl
  | error error =>
      dsimp only
      split <;> rfl

theorem errors_drained (hlenient : preferences.stopOnBalanceError = false)
    (hbottom : s.Bottom fun _ => True) :
    (faults preferences s).map (·.error) = Drain.errors ⟨s, false⟩ := by
  apply filterMap_drained _ hlenient hbottom
  intro answer
  unfold fault? item?
  cases answer.result with
  | ok token => rfl
  | error error =>
      dsimp only
      split <;> rfl

end Scan

/-- A scan and an iterator over the balance check of a source agree, if the
scan keeps blanks and comments, goes on at faults in the nesting and has
room for all errors. The report has the tokens of the iterator and counts
their kinds, its diagnostics are the errors of the iterator, it is
incomplete exactly if the last item is a fatal error, and it tells how far
the iterator has come. -/
theorem report_drained (name : String) (source : CharSource) (preferences : ScanPreferences)
    (session : Log.Session) (htrivia : preferences.includeTrivia = true)
    (hlenient : preferences.stopOnBalanceError = false)
    (hroom : (Drain.errors { stream := Scan.checker source }).length
      ≤ preferences.maxDiagnostics) :
    let drain : Drain := { stream := Scan.checker source }
    let report := (scan name source preferences session).1
    report.tokens.toList.map (·.token) = drain.tokens
      ∧ report.diagnostics.toList.map (fun d => (d.code, d.message, d.offset, d.recoverable))
        = drain.errors.map (fun e => (e.code, e.message, e.offset?, e.isRecoverable))
      ∧ (∀ kindName, report.counts.get? kindName
          = let count := drain.tokens.countP fun token => token.kind.name == kindName
            if count = 0 then none else some count)
      ∧ (report.completed = false
          ↔ ∃ error, drain.items.getLast? = some (.error error) ∧ error.isFatal = true)
      ∧ (report.hasErrors = true ↔ ∃ error, .error error ∈ drain.items)
      ∧ report.characters = drain.left.offset
      ∧ report.lines = drain.left.line := by
  have hbottom : (Scan.checker source).Bottom fun _ => True := trivial
  have hkept : (Scan.faults preferences (Scan.checker source)).length
      ≤ preferences.maxDiagnostics := by
    rwa [← List.length_map, Scan.errors_drained hlenient hbottom]
  have hfailed := Drain.failed_iff ⟨Scan.checker source, false⟩ hbottom
  simp only [hfailed, ← Drain.mem_errors]
  rw [Scan.report_eq, ← Scan.tokens_drained hlenient hbottom,
    ← Scan.errors_drained hlenient hbottom, ← (Scan.answers_drained hlenient hbottom).2]
  unfold Scan.account
  dsimp only
  generalize Scan.scanned preferences (Scan.checker source) = tokens
  generalize Scan.faults preferences (Scan.checker source) = faults at hkept ⊢
  refine ⟨?_, ?_, fun kindName => get?_tally kindName tokens, ?_, ?_, rfl, rfl⟩
  · congr 1
    apply List.filter_eq_self.2
    intro scanned _
    unfold Scan.keeps
    rw [htrivia, Bool.true_or]
  · rw [List.take_of_length_le hkept, List.map_map, List.map_map]
    rfl
  · rw [Bool.not_eq_false', List.any_eq_true]
    simp [Scan.isFinal_eq_isFatal hlenient]
  · unfold Report.hasErrors
    dsimp only
    rw [List.take_of_length_le hkept, Nat.sub_eq_zero_of_le hkept]
    cases faults with
    | nil => simp
    | cons fault rest => simp

/-- Preferences to keep everything, up to two errors. -/
def keepAll : ScanPreferences := ⟨true, false, 2⟩

/-- A closer that finds nothing open, and a comment that is never closed. -/
theorem report_drained_open_comment :
    let source := CharSource.ofString ") a\n/* b"
    let drain : Drain := { stream := Scan.checker source }
    let report := (scan "open" source keepAll {}).1
    drain.errors = [.balance (.unexpectedCloser ')' 0), .failure (.unterminatedComment 4)]
      ∧ keepAll.includeTrivia = true ∧ keepAll.stopOnBalanceError = false
      ∧ drain.errors.length ≤ keepAll.maxDiagnostics
      ∧ report.tokens.toList.map (·.token) = drain.tokens
      ∧ (report.completed = false
          ↔ ∃ error, drain.items.getLast? = some (.error error) ∧ error.isFatal = true)
      ∧ report.characters = drain.left.offset
      ∧ report.lines = drain.left.line := by
  intro source drain report
  have herrors : drain.errors
      = [.balance (.unexpectedCloser ')' 0), .failure (.unterminatedComment 4)] := by
    decide +kernel
  have hroom : drain.errors.length ≤ keepAll.maxDiagnostics := by
    rw [herrors]
    decide
  obtain ⟨htokens, -, -, hcompleted, -, hcharacters, hlines⟩ :=
    report_drained "open" source keepAll {} rfl rfl hroom
  exact ⟨herrors, rfl, rfl, hroom, htokens, hcompleted, hcharacters, hlines⟩

end LayeredLexer
