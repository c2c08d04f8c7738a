/-
A scan as the answers that it gets. A scan asks its balance check for a
token until the answer is the end of the input or an error that it stops
at. The report says nothing that is not in the answers: `account` reads
it off them, field by field, and `report_eq` is the one place where the
loop of a scan is followed. What is to be shown of reports is shown of
lists of answers from there on.

# What the answers hold

The tokens are the `scanned` ones, each with the line it starts on, and
the errors are the `faults`, each with the line that was reached. Both
come in the order of the requests, and neither depends on what a report
keeps: of the preferences only the one that stops a scan decides which
requests are made (`answers_congr`).

# The loop as a fold

One more answer changes an account as the loop changes a report
(`record_account`). The limit of errors is the delicate part, since the
loop compares it with what it has kept and not with what it has met.
-/
import LayeredLexer.Scan
import Mathlib.Data.List.Induction

namespace LayeredLexer

/-- An error that a scan met, with the line that was reached then. -/
structure Fault where
  error : LexError
  line : Nat
deriving DecidableEq, Repr

/-- The diagnostic of a fault. -/
def Fault.diagnostic (fault : Fault) : Diagnostic := .ofError fault.error fault.line

/-- Whether a fault is one in the nesting. -/
def Fault.isBalance (fault : Fault) : Bool := fault.error.isBalance

/-- The number of tokens of each kind. -/
def tally (tokens : List ScannedToken) : Dictionary Nat :=
  tokens.foldl
    (fun counts scanned => counts.alter scanned.token.kind.name fun count => count.getD 0 + 1) []

namespace Scan

variable {preferences : ScanPreferences} {s : Stream}

-- ============================================================ one request

/-- Whether a scan makes another request after this one. -/
def goesOn (preferences : ScanPreferences) : Item → Bool
  | .ok _ => true
  | .error error => decide (error ≠ .endOfInput) && !isFinal preferences error

theorem goesOn_error_iff {error : LexError} :
    goesOn preferences (.error error) = true
      ↔ error ≠ .endOfInput ∧ isFinal preferences error = false := by
  simp [goesOn]

/-- A fatal error is final, whatever is preferred. -/
theorem isFatal_of_not_final {error : LexError} (h : isFinal preferences error = false) :
    error.isFatal = false :=
  (Bool.or_eq_false_iff.1 h).1

/-- If faults in the nesting are not to stop a scan, only failures do. -/
theorem isFinal_eq_isFatal (hlenient : preferences.stopOnBalanceError = false)
    (error : LexError) : isFinal preferences error = error.isFatal := by
  unfold isFinal
  rw [hlenient, Bool.and_false, Bool.or_false]

/-- Every request that is followed by another one lowers the bounds on what
the stream still has. -/
theorem itemsDue_lt_of_goesOn {w : Tokenizer → Nat} (pays : Tokenizer.Pays w)
    (h : goesOn preferences s.consume.result = true) :
    s.consume.stream.itemsDue w < s.itemsDue w := by
  generalize hconsume : s.consume = answer at h ⊢
  obtain ⟨result, next, events⟩ := answer
  cases result with
  | ok token => exact Stream.itemsDue_consume_lt pays hconsume
  | error error =>
      obtain ⟨hend, hgo⟩ := goesOn_error_iff.1 h
      exact Stream.itemsDue_consume_error_lt pays hconsume (isFatal_of_not_final hgo) hend

theorem itemsAhead_lt_of_goesOn (h : goesOn preferences s.consume.result = true) :
    s.consume.stream.itemsAhead < s.itemsAhead :=
  itemsDue_lt_of_goesOn Tokenizer.pays_tokensAhead h

section Run

variable {next : Stream} {report : Report} {logged : Array Log.Event} {events : List Log.Event}

theorem run_ok {token : Token} (h : s.consume = ⟨.ok token, next, events⟩) :
    run preferences s report logged
      = run preferences next (report.recordToken token (startLine token next.line)
          (preferences.includeTrivia || !token.isTrivia)) (logged ++ events) := by
  rw [run]
  split <;> simp_all

theorem run_error {error : LexError} (h : s.consume = ⟨.error error, next, events⟩)
    (hend : error ≠ .endOfInput) (hgo : isFinal preferences error = false) :
    run preferences s report logged
      = run preferences next
          (report.recordDiagnostic (.ofError error next.line) preferences.maxDiagnostics)
          (logged ++ events) := by
  rw [run]
  split <;> simp_all

theorem run_over (h : s.consume = ⟨.error .endOfInput, next, events⟩) :
    run preferences s report logged = (next, report, logged ++ events) := by
  rw [run]
  split <;> simp_all

theorem run_final {error : LexError} (h : s.consume = ⟨.error error, next, events⟩)
    (hend : error ≠ .endOfInput) (hfinal : isFinal preferences error = true) :
    run preferences s report logged
      = (next,
          { report.recordDiagnostic (.ofError error next.line) preferences.maxDiagnostics with
            completed := false },
          logged ++ events) := by
  rw [run]
  split <;> simp_all

end Run

-- ============================================================ all requests

/-- The answers to the requests of a scan, in their order. -/
def answers (preferences : ScanPreferences) (s : Stream) : List (Answer Token) :=
  if _h : goesOn preferences s.consume.result = true then
    s.consume :: answers preferences s.consume.stream
  else [s.consume]
termination_by s.itemsAhead
decreasing_by exact itemsAhead_lt_of_goesOn _h

theorem answers_of_goesOn (h : goesOn preferences s.consume.result = true) :
    answers preferences s = s.consume :: answers preferences s.consume.stream := by
  rw [answers, dif_pos h]

theorem answers_of_stops (h : goesOn preferences s.consume.result = false) :
    answers preferences s = [s.consume] := by
  rw [answers, dif_neg (Bool.not_eq_true _ ▸ h)]

theorem answers_ne_nil (preferences : ScanPreferences) (s : Stream) :
    answers preferences s ≠ [] := by
  rw [answers]
  split <;> exact List.cons_ne_nil _ _

/-- The stream that a scan leaves. -/
def left (preferences : ScanPreferences) (s : Stream) : Stream :=
  ((answers preferences s).getLast?.map (·.stream)).getD s

/-- What an answer adds to a report. -/
def record (preferences : ScanPreferences) (report : Report) (answer : Answer Token) : Report :=
  match answer.result with
  | .ok token =>
    report.recordToken token (startLine token answer.stream.line)
      (preferences.includeTrivia || !token.isTrivia)
  | .error error =>
    if error = .endOfInput then report
    else
      let report :=
        report.recordDiagnostic (.ofError error answer.stream.line) preferences.maxDiagnostics
      if isFinal preferences error then { report with completed := false } else report

theorem left_of_goesOn (h : goesOn preferences s.consume.result = true) :
    left preferences s = left preferences s.consume.stream := by
  rw [left, answers_of_goesOn h, List.getLast?_cons, left]
  cases (answers preferences s.consume.stream).getLast? <;> rfl

theorem left_of_stops (h : goesOn preferences s.consume.result = false) :
    left preferences s = s.consume.stream := by
  rw [left, answers_of_stops h]
  rfl

/-- What was logged in two steps was logged in one. -/
theorem logged_append (logged : Array Log.Event) (events more : List Log.Event) :
    logged ++ events ++ more = logged ++ (events ++ more) := by
  apply Array.ext'
  simp only [Array.toList_appendList, List.append_assoc]

/-- A scan goes through its answers, one after the other. -/
theorem run_eq (preferences : ScanPreferences) (s : Stream) (report : Report)
    (logged : Array Log.Event) :
    run preferences s report logged
      = (left preferences s, (answers preferences s).foldl (record preferences) report,
          logged ++ (answers preferences s).flatMap (·.events)) := by
  induction s using answers.induct preferences generalizing report logged with
  | case1 s hgo ih =>
      rw [answers_of_goesOn hgo, left_of_goesOn hgo, List.foldl_cons, List.flatMap_cons]
      generalize hconsume : s.consume = answer at hgo ih ⊢
      obtain ⟨result, next, events⟩ := answer
      cases result with
      | ok token =>
          rw [run_ok hconsume, ih, logged_append]
          rfl
      | error error =>
          obtain ⟨hend, hfinal⟩ := goesOn_error_iff.1 hgo
          rw [run_error hconsume hend hfinal, ih, logged_append]
          simp [record, hend, hfinal]
  | case2 s hstop =>
      have hstop := eq_false_of_ne_true hstop
      rw [answers_of_stops hstop, left_of_stops hstop, List.foldl_cons, List.foldl_nil]
      generalize hconsume : s.consume = answer at hstop ⊢
      obtain ⟨result, next, events⟩ := answer
      cases result with
      | ok token => cases hstop
      | error error =>
          by_cases hend : error = .endOfInput
          · subst hend
            rw [run_over hconsume]
            simp [record]
          · have hfinal : isFinal preferences error = true := by
              simpa [goesOn, hend] using hstop
            rw [run_final hconsume hend hfinal]
            simp [record, hend, hfinal]

-- ============================================================== the account

/-- The token that an answer delivers, with the line it starts on. -/
def scanned? (answer : Answer Token) : Option ScannedToken :=
  match answer.result with
  | .ok token => some ⟨token, startLine token answer.stream.line⟩
  | .error _ => none

/-- The error that an answer raises. The end of the input is none. -/
def fault? (answer : Answer Token) : Option Fault :=
  match answer.result with
  | .ok _ => none
  | .error error => if error = .endOfInput then none else some ⟨error, answer.stream.line⟩

/-- The tokens that a scan is given, in their order. -/
def scanned (preferences : ScanPreferences) (s : Stream) : List ScannedToken :=
  (answers preferences s).filterMap scanned?

/-- The errors that a scan meets, in their order. -/
def faults (preferences : ScanPreferences) (s : Stream) : List Fault :=
  (answers preferences s).filterMap fault?

theorem faults_of_goesOn (h : goesOn preferences s.consume.result = true) :
    faults preferences s = (fault? s.consume).toList ++ faults preferences s.consume.stream := by
  rw [faults, answers_of_goesOn h, List.filterMap_cons, faults]
  cases fault? s.consume <;> rfl

theorem faults_of_stops (h : goesOn preferences s.consume.result = false) :
    faults preferences s = (fault? s.consume).toList := by
  rw [faults, answers_of_stops h, List.filterMap_cons, List.filterMap_nil]
  cases fault? s.consume <;> rfl

theorem fault?_eq_some_iff {answer : Answer Token} {fault : Fault} :
    fault? answer = some fault
      ↔ answer.result = .error fault.error ∧ fault.error ≠ .endOfInput
        ∧ answer.stream.line = fault.line := by
  obtain ⟨result, next, events⟩ := answer
  obtain ⟨error, line⟩ := fault
  cases result with
  | ok token => simp [fault?]
  | error met =>
      by_cases hend : met = .endOfInput
      · subst hend
        simp only [fault?, if_pos]
        constructor
        · rintro ⟨⟩
        · rintro ⟨hsame, hother, -⟩
          cases hsame
          exact absurd rfl hother
      · simp only [fault?, if_neg hend, Option.some.injEq, Fault.mk.injEq, Except.error.injEq]
        constructor
        · rintro ⟨rfl, rfl⟩
          exact ⟨rfl, hend, rfl⟩
        · rintro ⟨rfl, -, rfl⟩
          exact ⟨rfl, rfl⟩

/-- What an answer after which a scan goes on raises is not final. -/
theorem not_final_of_goesOn {answer : Answer Token} (h : goesOn preferences answer.result = true)
    {fault : Fault} (hfault : fault? answer = some fault) :
    isFinal preferences fault.error = false := by
  obtain ⟨hraised, -, -⟩ := fault?_eq_some_iff.1 hfault
  rw [hraised] at h
  exact (goesOn_error_iff.1 h).2

/-- What the last answer raises is final, unless it is the end. -/
theorem final_of_stops {answer : Answer Token} (h : goesOn preferences answer.result = false)
    {fault : Fault} (hfault : fault? answer = some fault) :
    isFinal preferences fault.error = true := by
  obtain ⟨hraised, hend, -⟩ := fault?_eq_some_iff.1 hfault
  rw [hraised] at h
  simpa [goesOn, hend] using h

/-- Whether a token is kept. -/
def keeps (preferences : ScanPreferences) (scanned : ScannedToken) : Bool :=
  preferences.includeTrivia || !scanned.token.isTrivia

/-- The report about tokens and errors, before the source is looked at
for how far it was read. -/
def account (preferences : ScanPreferences) (name : String) (tokens : List ScannedToken)
    (faults : List Fault) : Report where
  source := name
  tokens := (tokens.filter (keeps preferences)).toArray
  counts := tally tokens
  diagnostics := ((faults.take preferences.maxDiagnostics).map Fault.diagnostic).toArray
  dropped := faults.length - preferences.maxDiagnostics
  lines := 1
  characters := 0
  completed := !faults.any fun fault => isFinal preferences fault.error
  elapsedMs := 0

variable {name : String} {tokens : List ScannedToken} {faults : List Fault}

theorem account_token (token : Token) (line : Nat) :
    (account preferences name tokens faults).recordToken token line
        (preferences.includeTrivia || !token.isTrivia)
      = account preferences name (tokens ++ [⟨token, line⟩]) faults := by
  have hcounts : tally (tokens ++ [⟨token, line⟩])
      = (tally tokens).alter token.kind.name fun count => count.getD 0 + 1 := by
    rw [tally, List.foldl_append]
    rfl
  unfold account Report.recordToken
  dsimp only
  rw [hcounts, List.filter_append]
  by_cases hkeep : (preferences.includeTrivia || !token.isTrivia) = true
  · have hlast : [(⟨token, line⟩ : ScannedToken)].filter (keeps preferences) = [⟨token, line⟩] :=
      List.filter_cons_of_pos hkeep
    rw [if_pos hkeep, hlast, List.push_toArray]
  · have hlast : [(⟨token, line⟩ : ScannedToken)].filter (keeps preferences) = [] :=
      List.filter_cons_of_neg hkeep
    rw [if_neg hkeep, hlast, List.append_nil]

/-- The limit is compared with the errors that were kept, of which there
are as many as were met until it is reached. -/
theorem account_fault (fault : Fault) :
    (account preferences name tokens (faults ++ [fault]))
      = { (account preferences name tokens faults).recordDiagnostic fault.diagnostic
            preferences.maxDiagnostics with
          completed := (account preferences name tokens faults).completed
            && !isFinal preferences fault.error } := by
  have hsize : (account preferences name tokens faults).diagnostics.size
      = min preferences.maxDiagnostics faults.length := by
    simp [account]
  rw [Report.recordDiagnostic, hsize]
  by_cases hroom : faults.length < preferences.maxDiagnostics
  · have hkept : (faults ++ [fault]).take preferences.maxDiagnostics = faults ++ [fault] := by
      apply List.take_of_length_le
      rw [List.length_append, List.length_singleton]
      omega
    have hbefore : faults.take preferences.maxDiagnostics = faults :=
      List.take_of_length_le (Nat.le_of_lt hroom)
    have hnone : (faults ++ [fault]).length - preferences.maxDiagnostics
        = faults.length - preferences.maxDiagnostics := by
      rw [List.length_append, List.length_singleton]
      omega
    rw [if_pos (by omega), account, hkept, hnone]
    simp [account, hbefore]
  · have hkept : (faults ++ [fault]).take preferences.maxDiagnostics
        = faults.take preferences.maxDiagnostics :=
      List.take_append_of_le_length (Nat.le_of_not_lt hroom)
    have hmore : (faults ++ [fault]).length - preferences.maxDiagnostics
        = faults.length - preferences.maxDiagnostics + 1 := by
      rw [List.length_append, List.length_singleton]
      omega
    rw [if_neg (by omega), account, hkept, hmore]
    simp [account]

/-- One more answer changes an account as it changes a report. -/
theorem record_account (answer : Answer Token) :
    record preferences (account preferences name tokens faults) answer
      = account preferences name (tokens ++ (scanned? answer).toList)
          (faults ++ (fault? answer).toList) := by
  obtain ⟨result, next, events⟩ := answer
  cases result with
  | ok token =>
      simp only [scanned?, fault?, Option.toList_some, Option.toList_none, List.append_nil]
      rw [← account_token]
      rfl
  | error error =>
      by_cases hend : error = .endOfInput
      · simp [record, scanned?, fault?, hend]
      · simp only [record, scanned?, fault?, if_neg hend, Option.toList_some, Option.toList_none,
          List.append_nil]
        rw [account_fault]
        cases hfinal : isFinal preferences error with
        | true => simp [Fault.diagnostic]
        | false =>
            simp only [Bool.not_false, Bool.and_true, Bool.false_eq_true, if_false]
            unfold Report.recordDiagnostic
            split <;> rfl

theorem foldl_record (answers : List (Answer Token)) :
    answers.foldl (record preferences) (.initial name)
      = account preferences name (answers.filterMap scanned?) (answers.filterMap fault?) := by
  induction answers using List.reverseRecOn with
  | nil => simp [account, Report.initial, tally]
  | append_singleton answers answer ih =>
      rw [List.foldl_append, List.foldl_cons, List.foldl_nil, ih, record_account,
        List.filterMap_append, List.filterMap_append]
      rfl

/-- The report of a scan, read off its answers. -/
theorem report_eq (name : String) (source : CharSource) (preferences : ScanPreferences)
    (session : Log.Session) :
    (scan name source preferences session).1
      = { account preferences name (scanned preferences (checker source))
            (Scan.faults preferences (checker source)) with
          lines := (left preferences (checker source)).line
          characters := (left preferences (checker source)).offset } := by
  unfold scan Log.Session.within
  dsimp only
  rw [run_eq, foldl_record]
  rfl

/-- A report tells of as many errors as the scan has met. -/
theorem errorCount_scan (name : String) (source : CharSource) (preferences : ScanPreferences)
    (session : Log.Session) :
    (scan name source preferences session).1.errorCount
      = (Scan.faults preferences (checker source)).length := by
  rw [report_eq]
  show (((Scan.faults preferences (checker source)).take preferences.maxDiagnostics).map
      Fault.diagnostic).toArray.size + _ = _
  rw [List.size_toArray, List.length_map, List.length_take]
  dsimp only [account]
  omega

/-- It tells whether one of them was final. -/
theorem completed_scan_iff (name : String) (source : CharSource) (preferences : ScanPreferences)
    (session : Log.Session) :
    (scan name source preferences session).1.completed = true
      ↔ ∀ fault ∈ Scan.faults preferences (checker source),
        isFinal preferences fault.error = false := by
  rw [report_eq]
  show (!(Scan.faults preferences (checker source)).any _) = true ↔ _
  rw [Bool.not_eq_true', List.any_eq_false]
  simp only [Bool.not_eq_true]

end Scan

end LayeredLexer
