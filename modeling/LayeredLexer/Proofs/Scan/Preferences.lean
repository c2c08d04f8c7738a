/-
What the preferences of a scan can change. Three preferences meet in one
loop: which tokens are kept, how many errors are kept, and whether the
first fault in the nesting of delimiters stops the scan. Only the last
one decides which requests are made (`answers_congr`), so the other two
choose from the same tokens and errors, and what they leave out is
counted all the same.

# Stopping

A scan that stops at faults in the nesting gets the answers of one that
does not, up to the first fault. There is no other error before it:
over a tokenizer an error is a fault in the nesting or a failure, and a
failure ends both scans (`peek_error`).

  a ) b ]      going on:  a, fault, ), b, fault, ]
               stopping:  a, fault

The closer at fault has been pulled by then, but it is delivered after
the error, so the stopping scan never has it as a token.
-/
import LayeredLexer.Proofs.Scan.Answers
import LayeredLexer.Proofs.Stream.Layers

namespace LayeredLexer

namespace Scan

variable {preferences : ScanPreferences} {s : Stream}

-- ============================================================ the requests

/-- Whether an error is final depends on no preference but the one that
stops a scan. -/
theorem isFinal_congr {other : ScanPreferences}
    (h : preferences.stopOnBalanceError = other.stopOnBalanceError) :
    isFinal preferences = isFinal other := by
  funext error
  rw [isFinal, isFinal, h]

/-- Nor do the requests of a scan. -/
theorem answers_congr {other : ScanPreferences}
    (h : preferences.stopOnBalanceError = other.stopOnBalanceError) :
    answers preferences s = answers other s := by
  have hgoesOn : goesOn preferences = goesOn other := by
    funext item
    cases item with
    | ok token => rfl
    | error error => rw [goesOn, goesOn, isFinal_congr h]
  induction s using answers.induct preferences with
  | case1 s hgo ih =>
      rw [answers_of_goesOn hgo, ih]
      rw [hgoesOn] at hgo
      rw [answers_of_goesOn hgo]
  | case2 s hstop =>
      have hstop := eq_false_of_ne_true hstop
      rw [answers_of_stops hstop]
      rw [hgoesOn] at hstop
      rw [answers_of_stops hstop]

-- ================================================================ stopping

/-- The preferences, but for the one that stops a scan. -/
def stopping (preferences : ScanPreferences) (stop : Bool) : ScanPreferences :=
  { preferences with stopOnBalanceError := stop }

/-- A scan that is not to stop at faults in the nesting is ended by
failures only. -/
theorem isFinal_lenient (error : LexError) :
    isFinal (stopping preferences false) error = error.isFatal :=
  isFinal_eq_isFatal rfl error

theorem isFinal_strict (error : LexError) :
    isFinal (stopping preferences true) error = (error.isFatal || error.isBalance) := by
  rw [isFinal]
  show (_ || (_ && true)) = _
  rw [Bool.and_true]

/-- The scan that is to stop goes on where the other one does, except at
a fault in the nesting. -/
theorem goesOn_strict (preferences : ScanPreferences) {answer : Answer Token}
    (hsound : ∀ fault, fault? answer = some fault → fault.isBalance = false) :
    goesOn (stopping preferences true) answer.result
      = goesOn (stopping preferences false) answer.result := by
  obtain ⟨result, next, events⟩ := answer
  cases result with
  | ok token => rfl
  | error error =>
      by_cases hend : error = .endOfInput
      · subst hend
        rfl
      · have hbalance := hsound ⟨error, next.line⟩ (fault?_eq_some_iff.2 ⟨rfl, hend, rfl⟩)
        have hbalance : error.isBalance = false := hbalance
        rw [goesOn, goesOn, isFinal_lenient, isFinal_strict, hbalance, Bool.or_false]

theorem goesOn_strict_of_fault (preferences : ScanPreferences) {answer : Answer Token}
    {fault : Fault}
    (hfault : fault? answer = some fault) (hbalance : fault.isBalance = true) :
    goesOn (stopping preferences true) answer.result = false := by
  obtain ⟨hraised, -, -⟩ := fault?_eq_some_iff.1 hfault
  have hbalance : fault.error.isBalance = true := hbalance
  rw [hraised, goesOn, isFinal_strict, hbalance, Bool.or_true, Bool.not_true, Bool.and_false]

/-- Without a fault in the nesting both scans are the same. -/
theorem answers_strict_of_sound
    (hsound : ∀ fault ∈ faults (stopping preferences false) s, fault.isBalance = false) :
    answers (stopping preferences true) s = answers (stopping preferences false) s := by
  induction s using answers.induct (stopping preferences false) with
  | case1 s hgo ih =>
      rw [faults_of_goesOn hgo] at hsound
      have hsame := goesOn_strict preferences fun fault h =>
        hsound fault (List.mem_append_left _ (Option.mem_toList.2 h))
      rw [answers_of_goesOn hgo, answers_of_goesOn (hsame.trans hgo), ih]
      intro fault hmem
      exact hsound fault (List.mem_append_right _ hmem)
  | case2 s hstop =>
      have hstop := eq_false_of_ne_true hstop
      rw [faults_of_stops hstop] at hsound
      have hsame := goesOn_strict preferences fun fault h =>
        hsound fault (Option.mem_toList.2 h)
      rw [answers_of_stops hstop, answers_of_stops (hsame.trans hstop)]

/-- With one, the scan that is to stop meets the first one and nothing
else, and gets no other answers than the other scan gets until then. -/
theorem answers_strict_of_fault (hbottom : s.Bottom fun _ => True) {fault : Fault}
    (hfirst : (faults (stopping preferences false) s).find? Fault.isBalance = some fault) :
    faults (stopping preferences true) s = [fault]
      ∧ answers (stopping preferences true) s <+: answers (stopping preferences false) s := by
  induction s using answers.induct (stopping preferences false) with
  | case1 s hgo ih =>
      rw [faults_of_goesOn hgo] at hfirst
      rw [answers_of_goesOn hgo]
      cases hmet : fault? s.consume with
      | none =>
          have hstrict : goesOn (stopping preferences true) s.consume.result = true := by
            rw [goesOn_strict, hgo]
            intro fault h
            cases hmet.symm.trans h
          rw [hmet] at hfirst
          obtain ⟨hfaults, hpart⟩ := ih hbottom.consume hfirst
          rw [faults_of_goesOn hstrict, hmet, answers_of_goesOn hstrict]
          exact ⟨hfaults, (List.prefix_cons_inj _).2 hpart⟩
      | some met =>
          -- no failure, since the other scan goes on
          obtain ⟨hraised, hend, -⟩ := fault?_eq_some_iff.1 hmet
          have hfatal : met.error.isFatal = false := by
            rw [← isFinal_lenient]
            exact not_final_of_goesOn hgo hmet
          have hbalance : met.isBalance = true := by
            rcases Stream.consume_error hbottom hraised hend with h | h
            · cases hfatal.symm.trans h
            · exact h
          have hstrict := goesOn_strict_of_fault preferences hmet hbalance
          rw [hmet, Option.toList_some, List.singleton_append,
            List.find?_cons_of_pos hbalance] at hfirst
          cases hfirst
          rw [faults_of_stops hstrict, hmet, answers_of_stops hstrict]
          exact ⟨rfl, (List.prefix_cons_inj _).2 List.nil_prefix⟩
  | case2 s hstop =>
      have hstop := eq_false_of_ne_true hstop
      rw [faults_of_stops hstop] at hfirst
      cases hmet : fault? s.consume with
      | none =>
          rw [hmet] at hfirst
          cases hfirst
      | some met =>
          -- a failure, which is no fault in the nesting
          have hfatal := final_of_stops hstop hmet
          rw [isFinal_lenient] at hfatal
          have hother : met.isBalance = false := by
            rw [Fault.isBalance]
            cases hraised : met.error with
            | failure failure => rfl
            | balance | endOfInput | invalidPushback => cases hraised ▸ hfatal
          rw [hmet, Option.toList_some,
            List.find?_cons_of_neg (Bool.eq_false_iff.1 hother)] at hfirst
          cases hfirst

-- =========================================================== what is kept

section Accounts

variable {name : String} {tokens : List ScannedToken} {faults : List Fault} {trivia stop : Bool}

/-- An account that leaves blanks and comments out is the other one
without them. -/
theorem account_without_trivia (limit : Nat) :
    account ⟨false, stop, limit⟩ name tokens faults
      = { account ⟨true, stop, limit⟩ name tokens faults with
          tokens := (account ⟨true, stop, limit⟩ name tokens faults).tokens.filter
            fun scanned => scanned.token.kind ≠ .space ∧ scanned.token.kind ≠ .comment } := by
  have hkept : tokens.filter (keeps ⟨true, stop, limit⟩) = tokens :=
    List.filter_eq_self.2 fun _ _ => rfl
  have hplain : keeps ⟨false, stop, limit⟩
      = fun scanned => decide (scanned.token.kind ≠ .space ∧ scanned.token.kind ≠ .comment) := by
    funext scanned
    obtain ⟨⟨kind, text, offset⟩, line⟩ := scanned
    cases kind <;> rfl
  unfold account
  dsimp only
  rw [hkept, hplain, List.filter_toArray]
  rfl

/-- One with a limit is the one with room for all errors, cut there. -/
theorem account_limited (limit more : Nat) :
    account ⟨trivia, stop, limit⟩ name tokens faults
      = { account ⟨trivia, stop, faults.length + more⟩ name tokens faults with
          diagnostics := (account ⟨trivia, stop, faults.length + more⟩ name tokens
            faults).diagnostics.take limit
          dropped := (account ⟨trivia, stop, faults.length + more⟩ name tokens
            faults).diagnostics.size - limit } := by
  have hall : faults.take (faults.length + more) = faults :=
    List.take_of_length_le (Nat.le_add_right _ _)
  unfold account
  dsimp only
  rw [hall, List.take_toArray, List.size_toArray, List.length_map, List.map_take]
  rfl

/-- Without faults in the nesting it makes no difference which account is
given. -/
theorem account_strict_of_sound {preferences : ScanPreferences}
    (hsound : ∀ fault ∈ faults, fault.isBalance = false) :
    account (stopping preferences true) name tokens faults
      = account (stopping preferences false) name tokens faults := by
  have hfinal : (faults.any fun fault => isFinal (stopping preferences true) fault.error)
      = faults.any fun fault => isFinal (stopping preferences false) fault.error := by
    rw [Bool.eq_iff_iff, List.any_eq_true, List.any_eq_true]
    apply exists_congr
    intro fault
    apply and_congr_right
    intro hmem
    have hother : fault.error.isBalance = false := hsound fault hmem
    rw [isFinal_strict, isFinal_lenient, hother, Bool.or_false]
  unfold account
  rw [hfinal]
  rfl

end Accounts

-- ============================================================ the reports

variable (name : String) (source : CharSource) (session : Log.Session)

/-- The report of a scan, with the requests of another one that stops at
the same errors. -/
theorem report_eq_of_stop (preferences other : ScanPreferences)
    (h : preferences.stopOnBalanceError = other.stopOnBalanceError) :
    (scan name source preferences session).1
      = { account preferences name (scanned other (checker source))
            (faults other (checker source)) with
          lines := (left other (checker source)).line
          characters := (left other (checker source)).offset } := by
  rw [report_eq, scanned, faults, left, answers_congr h]
  rfl

/-- Keeping no blanks and comments changes the tokens only. -/
theorem report_without_trivia (stop : Bool) (limit : Nat) :
    (scan name source ⟨false, stop, limit⟩ session).1
      = { (scan name source ⟨true, stop, limit⟩ session).1 with
          tokens := (scan name source ⟨true, stop, limit⟩ session).1.tokens.filter
            fun scanned => scanned.token.kind ≠ .space ∧ scanned.token.kind ≠ .comment } := by
  have hplain := report_eq_of_stop name source session ⟨false, stop, limit⟩ ⟨true, stop, limit⟩ rfl
  rw [hplain, report_eq, account_without_trivia]

/-- The limit takes the last errors out, and counts them. -/
theorem report_limited (trivia stop : Bool) (limit more : Nat) :
    let room := (faults ⟨trivia, stop, limit⟩ (checker source)).length + more
    let whole := (scan name source ⟨trivia, stop, room⟩ session).1
    whole.dropped = 0
      ∧ (scan name source ⟨trivia, stop, limit⟩ session).1
        = { whole with
            diagnostics := whole.diagnostics.take limit
            dropped := whole.diagnostics.size - limit } := by
  intro room whole
  have hwhole : whole = _ :=
    report_eq_of_stop name source session ⟨trivia, stop, room⟩ ⟨trivia, stop, limit⟩ rfl
  rw [hwhole]
  constructor
  · exact Nat.sub_eq_zero_of_le (Nat.le_add_right _ _)
  · rw [report_eq, account_limited limit more]

variable (preferences : ScanPreferences)

/-- Where there is no fault in the nesting, to stop at one or not is the
same. -/
theorem report_strict_of_sound
    (hsound : ∀ fault ∈ faults (stopping preferences false) (checker source),
      fault.isBalance = false) :
    (scan name source (stopping preferences true) session).1
      = (scan name source (stopping preferences false) session).1 := by
  have hsame := answers_strict_of_sound hsound
  have hfaults : faults (stopping preferences true) (checker source)
      = faults (stopping preferences false) (checker source) :=
    congrArg (List.filterMap fault?) hsame
  have hscanned : scanned (stopping preferences true) (checker source)
      = scanned (stopping preferences false) (checker source) :=
    congrArg (List.filterMap scanned?) hsame
  rw [report_eq, report_eq, hfaults, hscanned, account_strict_of_sound hsound, left, hsame]
  rfl

/-- Where there is one, a scan that is to stop meets the first one alone,
and has some of the first tokens. -/
theorem report_strict_of_fault {first : Fault}
    (hfirst : (faults (stopping preferences false) (checker source)).find? Fault.isBalance
      = some first) :
    faults (stopping preferences true) (checker source) = [first]
      ∧ (scan name source (stopping preferences true) session).1.completed = false
      ∧ (scan name source (stopping preferences true) session).1.diagnostics
        = #[first.diagnostic].take preferences.maxDiagnostics
      ∧ (scan name source (stopping preferences true) session).1.errorCount = 1
      ∧ (scan name source (stopping preferences true) session).1.tokens.toList
        <+: (scan name source (stopping preferences false) session).1.tokens.toList := by
  have hbottom : (checker source).Bottom fun _ => True := trivial
  obtain ⟨hfaults, hpart⟩ := answers_strict_of_fault hbottom hfirst
  have hbalance : first.isBalance = true := List.find?_some hfirst
  have hbalance : first.error.isBalance = true := hbalance
  rw [report_eq, report_eq, hfaults]
  refine ⟨rfl, ?_, ?_, ?_, ?_⟩
  · show (!([first].any fun fault => isFinal (stopping preferences true) fault.error)) = false
    rw [List.any_cons, isFinal_strict, hbalance, Bool.or_true, Bool.true_or, Bool.not_true]
  · show (([first].take preferences.maxDiagnostics).map Fault.diagnostic).toArray = _
    rw [List.map_take, List.take_toArray]
    rfl
  · show (([first].take preferences.maxDiagnostics).map Fault.diagnostic).toArray.size
      + ([first].length - preferences.maxDiagnostics) = 1
    rw [List.size_toArray, List.length_map, List.length_take, List.length_singleton]
    omega
  · exact (hpart.filterMap scanned?).filter (keeps preferences)

end Scan

/-- Preferences only choose from what a scan finds. Without blanks and
comments a report has the other tokens, on the same lines. With a limit
it has the first errors of a report with room for all, and the number of
the rest. And to stop at faults in the nesting changes nothing if there
is none; else the scan meets the first of them alone, and has some of the
first tokens. -/
theorem preferences_only_filter (name : String) (source : CharSource) (session : Log.Session)
    (trivia stop : Bool) (limit : Nat) :
    let report := fun trivia stop limit => (scan name source ⟨trivia, stop, limit⟩ session).1
    let met := fun stop => Scan.faults ⟨trivia, stop, limit⟩ (Scan.checker source)
    report false stop limit
        = { report true stop limit with
            tokens := (report true stop limit).tokens.filter fun scanned =>
              scanned.token.kind ≠ .space ∧ scanned.token.kind ≠ .comment }
      ∧ (∃ most, ∀ more,
          let whole := report trivia stop (most + more)
          whole.dropped = 0
            ∧ report trivia stop limit
              = { whole with
                  diagnostics := whole.diagnostics.take limit
                  dropped := whole.diagnostics.size - limit })
      ∧ match (met false).find? Fault.isBalance with
        | none => report trivia true limit = report trivia false limit
        | some first =>
          met true = [first]
            ∧ (report trivia true limit).completed = false
            ∧ (report trivia true limit).diagnostics = #[first.diagnostic].take limit
            ∧ (report trivia true limit).errorCount = 1
            ∧ (report trivia true limit).tokens.toList
              <+: (report trivia false limit).tokens.toList := by
  intro report met
  refine ⟨Scan.report_without_trivia name source session stop limit,
    ⟨(met stop).length, Scan.report_limited name source session trivia stop limit⟩, ?_⟩
  cases hfirst : (met false).find? Fault.isBalance with
  | none =>
      apply Scan.report_strict_of_sound name source session ⟨trivia, false, limit⟩
      intro fault hmem
      exact Bool.eq_false_iff.2 (List.find?_eq_none.1 hfirst fault hmem)
  | some first =>
      exact Scan.report_strict_of_fault name source session ⟨trivia, false, limit⟩ hfirst

end LayeredLexer
