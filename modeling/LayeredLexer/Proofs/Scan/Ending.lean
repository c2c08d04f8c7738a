/-
How a scan ended, and whether its report tells. A failure of the source
or an open quote or comment ends every scan, and it is the last error
that the scan meets (`faults_pairwise`, `endsBy_iff`). A report looks for
it among the diagnostics that it keeps, which are the first ones. So a
report tells the failure exactly if the limit of diagnostics has room for
all errors of the scan:

  ) 'a      one diagnostic kept: that of the closer

The failure counts as dropped there, and the report names no fatal error
although one has ended the scan.
-/
import LayeredLexer.Proofs.Scan.Answers

namespace LayeredLexer

namespace Scan

variable {preferences : ScanPreferences} {s : Stream}

-- ============================================================ the last error

/-- The last answer to a scan is this error, and this line was reached. -/
def EndsBy (preferences : ScanPreferences) (s : Stream) (error : LexError) (line : Nat) : Prop :=
  ∃ answer, (answers preferences s).getLast? = some answer
    ∧ answer.result = .error error ∧ answer.stream.line = line

theorem endsBy_of_goesOn (h : goesOn preferences s.consume.result = true) {error : LexError}
    {line : Nat} :
    EndsBy preferences s error line ↔ EndsBy preferences s.consume.stream error line := by
  have hlast : (answers preferences s).getLast?
      = (answers preferences s.consume.stream).getLast? := by
    rw [answers_of_goesOn h, List.getLast?_cons_of_ne_nil (answers_ne_nil _ _)]
  rw [EndsBy, EndsBy, hlast]

theorem endsBy_of_stops (h : goesOn preferences s.consume.result = false) {error : LexError}
    {line : Nat} :
    EndsBy preferences s error line
      ↔ s.consume.result = .error error ∧ s.consume.stream.line = line := by
  simp [EndsBy, answers_of_stops h]

/-- After an error that is final nothing is met any more. -/
theorem faults_pairwise (preferences : ScanPreferences) (s : Stream) :
    (faults preferences s).Pairwise fun fault _ => isFinal preferences fault.error = false := by
  induction s using answers.induct preferences with
  | case1 s hgo ih =>
      rw [faults_of_goesOn hgo]
      cases hfault : fault? s.consume with
      | none => exact ih
      | some fault =>
          apply List.pairwise_cons.2
          refine ⟨fun _ _ => ?_, ih⟩
          exact not_final_of_goesOn hgo hfault
  | case2 s hstop =>
      rw [faults_of_stops (eq_false_of_ne_true hstop)]
      cases fault? s.consume with
      | none => exact List.Pairwise.nil
      | some fault => exact List.pairwise_singleton _ _

/-- A scan ends by an error that is final exactly if that is the last one
it meets. -/
theorem endsBy_iff {error : LexError} {line : Nat} (hfinal : isFinal preferences error = true) :
    EndsBy preferences s error line ↔ (faults preferences s).getLast? = some ⟨error, line⟩ := by
  induction s using answers.induct preferences with
  | case1 s hgo ih =>
      rw [endsBy_of_goesOn hgo, ih, faults_of_goesOn hgo]
      cases hfault : fault? s.consume with
      | none => rfl
      | some fault =>
          have hnot := not_final_of_goesOn hgo hfault
          rw [Option.toList_some, List.singleton_append, List.getLast?_cons]
          cases (faults preferences s.consume.stream).getLast? with
          | some last => rfl
          | none =>
              constructor
              · intro h
                cases h
              · intro h
                cases h
                exact absurd hfinal (by simp [hnot])
  | case2 s hstop =>
      have hstop := eq_false_of_ne_true hstop
      rw [endsBy_of_stops hstop, faults_of_stops hstop]
      generalize s.consume = answer
      obtain ⟨result, next, events⟩ := answer
      cases result with
      | ok token => simp [fault?]
      | error met =>
          by_cases hend : met = .endOfInput
          · subst hend
            have hother : LexError.endOfInput ≠ error := by
              rintro rfl
              cases hfinal
            simp [fault?, hother]
          · simp [fault?, hend]

end Scan

-- ============================================================== the report

/-- Where nothing may follow what is looked for, the first few of a list
have it exactly if they are the whole list and it is the last one. -/
theorem find?_take_eq_some_iff {α : Type} {sought : α → Bool} {l : List α}
    (h : l.Pairwise fun a _ => sought a = false) (n : Nat) {a : α} :
    (l.take n).find? sought = some a ↔ l.length ≤ n ∧ l.getLast? = some a ∧ sought a = true := by
  induction l generalizing n with
  | nil => simp
  | cons b l ih =>
      obtain ⟨hfirst, hrest⟩ := List.pairwise_cons.1 h
      cases n with
      | zero => simp
      | succ n =>
          rw [List.take_succ_cons, List.length_cons, Nat.add_le_add_iff_right, List.getLast?_cons]
          by_cases hb : sought b = true
          · have hlast : l = [] := by
              apply List.eq_nil_iff_forall_not_mem.2
              intro c hc
              rw [hfirst c hc] at hb
              cases hb
            subst hlast
            rw [List.find?_cons_of_pos hb]
            constructor
            · intro heq
              cases heq
              exact ⟨Nat.zero_le n, rfl, hb⟩
            · rintro ⟨-, hlast, -⟩
              exact hlast
          · rw [List.find?_cons_of_neg hb, ih hrest]
            cases l.getLast? with
            | some last => rfl
            | none =>
                constructor
                · rintro ⟨-, hlast, -⟩
                  cases hlast
                · rintro ⟨-, hlast, hsought⟩
                  cases hlast
                  exact absurd hsought hb

/-- A report tells the failure that has ended a scan exactly if it had
room for all errors that the scan met; and a diagnostic that it takes
for fatal is always the one of such a failure. -/
theorem fatal?_eq_some_iff (name : String) (source : CharSource) (preferences : ScanPreferences)
    (session : Log.Session) (d : Diagnostic) :
    (scan name source preferences session).1.fatal? = some d
      ↔ (Scan.faults preferences (Scan.checker source)).length ≤ preferences.maxDiagnostics
        ∧ ∃ failure line, Scan.EndsBy preferences (Scan.checker source) (.failure failure) line
          ∧ d = ⟨failure.code, failure.message, some failure.offset, line, false⟩ := by
  have hlast := Scan.faults_pairwise preferences (Scan.checker source)
  have hfatal : (Scan.faults preferences (Scan.checker source)).Pairwise
      fun fault _ => fault.error.isFatal = false :=
    hlast.imp fun hgo => Scan.isFatal_of_not_final hgo
  have hsearch : (scan name source preferences session).1.fatal?
      = (((Scan.faults preferences (Scan.checker source)).take preferences.maxDiagnostics).find?
          fun fault => fault.error.isFatal).map Fault.diagnostic := by
    rw [Scan.report_eq, Report.fatal?, Scan.account, List.find?_toArray, List.find?_map]
    congr 2
    funext fault
    simp [Fault.diagnostic, Diagnostic.ofError, LexError.isRecoverable]
  rw [hsearch, Option.map_eq_some_iff]
  constructor
  · rintro ⟨⟨error, line⟩, hfound, rfl⟩
    obtain ⟨hroom, hlast, hfatal⟩ := (find?_take_eq_some_iff hfatal _).1 hfound
    cases error with
    | failure failure =>
        refine ⟨hroom, failure, line, (Scan.endsBy_iff rfl).2 hlast, rfl⟩
    | balance | endOfInput | invalidPushback => cases hfatal
  · rintro ⟨hroom, failure, line, hends, rfl⟩
    refine ⟨⟨.failure failure, line⟩, ?_, rfl⟩
    exact (find?_take_eq_some_iff hfatal _).2 ⟨hroom, (Scan.endsBy_iff rfl).1 hends, rfl⟩

/-- With room for one diagnostic, that of the closer hides the open quote
that the scan died of. -/
theorem fatal_hidden :
    Scan.EndsBy ⟨false, false, 1⟩ (Scan.checker (.ofString ") 'a"))
        (.failure (.unterminatedQuote 2)) 1
      ∧ (scan "cut" (.ofString ") 'a") ⟨false, false, 1⟩ {}).1.fatal? = none := by
  constructor
  · apply (Scan.endsBy_iff rfl).2
    decide +kernel
  · decide +kernel

end LayeredLexer
