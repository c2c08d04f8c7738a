/-
Every delimiter is accounted for once. An opener is closed, or taken off
by a closer of another kind, or reported at the end. A closer closes
something, or takes something off that it does not match, or finds nothing
open. A scan that comes to the end therefore has as many openers but for
the ones that it reports as closers but for the ones that found nothing
open, and both are the delimiters that were put on the stack and taken off
again by a closer.

# Who is at fault

A fault is found when its token passes, and a token passes once. So the
faults come in the order of the tokens that have them, each one has its
own, and these are closers (`passAll`). What is open at the end comes
behind all of them (`errors_course`).
-/
import LayeredLexer.Proofs.Lexer.CutShort
import LayeredLexer.Proofs.Scan.Course

namespace LayeredLexer

-- ================================================================== kinds

namespace Token

/-- Whether a token is a symbol with one of these texts. -/
def isSymbolOf (token : Token) (texts : List String) : Bool :=
  token.kind == .symbol && texts.contains token.text

def isOpener (token : Token) : Bool := token.isSymbolOf ["(", "[", "\x7b"]

def isCloser (token : Token) : Bool := token.isSymbolOf [")", "]", "\x7d"]

end Token

namespace LexError

def isUnexpectedCloser : LexError → Bool
  | balance (.unexpectedCloser ..) => true
  | _ => false

def isMismatchedCloser : LexError → Bool
  | balance (.mismatchedCloser ..) => true
  | _ => false

def isUnclosedDelimiter : LexError → Bool
  | balance (.unclosedDelimiter ..) => true
  | _ => false

end LexError

namespace Nesting

theorem symbol?_eq_some_iff {token : Token} {c : Char} :
    symbol? token = some c ↔ token.kind = .symbol ∧ token.text = String.singleton c := by
  unfold symbol? Token.character?
  rw [← String.toList_inj]
  split
  · next hkind =>
    split
    · next d hd => simp [hkind, hd]
    · next hmany =>
      have hother : token.text.toList ≠ [c] := fun h => hmany c h
      simp [hkind, hother]
  · next hkind => simp [hkind]

theorem isSymbolOf_iff {token : Token} {mark : Bracket → Char} :
    token.isSymbolOf [.singleton (mark .round), .singleton (mark .square),
        .singleton (mark .curly)] = true
      ↔ ∃ b, symbol? token = some (mark b) := by
  simp only [symbol?_eq_some_iff, Token.isSymbolOf, Bool.and_eq_true, beq_iff_eq,
    List.contains_iff_mem, List.mem_cons, List.not_mem_nil, or_false]
  constructor
  · rintro ⟨hkind, h | h | h⟩
    · exact ⟨.round, hkind, h⟩
    · exact ⟨.square, hkind, h⟩
    · exact ⟨.curly, hkind, h⟩
  · rintro ⟨b, hkind, htext⟩
    refine ⟨hkind, ?_⟩
    cases b with
    | round => exact .inl htext
    | square => exact .inr (.inl htext)
    | curly => exact .inr (.inr htext)

theorem isOpener_iff {token : Token} :
    token.isOpener = true ↔ ∃ b : Bracket, symbol? token = some b.opener :=
  @isSymbolOf_iff token Bracket.opener

theorem isCloser_iff {token : Token} :
    token.isCloser = true ↔ ∃ b : Bracket, symbol? token = some b.closer :=
  @isSymbolOf_iff token Bracket.closer

theorem isCloser_of_opener {token : Token} {b : Bracket} (h : symbol? token = some b.opener) :
    token.isCloser = false := by
  refine Bool.eq_false_iff.2 fun hcloser => ?_
  obtain ⟨b', hb'⟩ := isCloser_iff.1 hcloser
  exact b.opener_ne_closer b' (Option.some.inj (h.symm.trans hb'))

theorem isOpener_of_closer {token : Token} {b : Bracket} (h : symbol? token = some b.closer) :
    token.isOpener = false := by
  refine Bool.eq_false_iff.2 fun hopener => ?_
  obtain ⟨b', hb'⟩ := isOpener_iff.1 hopener
  exact b'.opener_ne_closer b (Option.some.inj (hb'.symm.trans h))

/-- What has a fault is a closer. -/
theorem isCloser_of_fault {opened : List Bracket} {token : Token} {error : BalanceError}
    (h : (pass opened token).2 = some error) : token.isCloser = true := by
  have hpasses := passes opened token
  rw [h] at hpasses
  generalize (pass opened token).1 = next at hpasses
  cases hpasses with
  | unexpected hcloser | mismatched outer hcloser => exact isCloser_iff.2 ⟨_, hcloser⟩

-- ============================================================== all tokens

/-- What is open behind tokens, and the faults that they have, each with
its token. -/
def passAll (opened : List Bracket) : List Token → List Bracket × List (Token × BalanceError)
  | [] => (opened, [])
  | token :: rest =>
    let (next, fault) := pass opened token
    let (last, faults) := passAll next rest
    (last, fault.toList.map (token, ·) ++ faults)

theorem passAll_cons (opened : List Bracket) (token : Token) (rest : List Token) :
    passAll opened (token :: rest)
      = ((passAll (pass opened token).1 rest).1,
          (pass opened token).2.toList.map (token, ·)
            ++ (passAll (pass opened token).1 rest).2) := rfl

/-- Each fault has its own token, in the same order. -/
theorem passAll_sublist (opened : List Bracket) (tokens : List Token) :
    ((passAll opened tokens).2.map Prod.fst).Sublist tokens := by
  induction tokens generalizing opened with
  | nil => exact List.Sublist.slnil
  | cons token rest ih =>
      rw [passAll_cons, List.map_append]
      cases (pass opened token).2 with
      | none => exact (ih _).cons token
      | some error => exact (ih _).cons_cons token

/-- The tokens at fault are closers, and their faults point at them. -/
theorem passAll_blames (opened : List Bracket) (tokens : List Token) :
    ∀ fault ∈ (passAll opened tokens).2,
      fault.1.isCloser = true ∧ fault.2.offset? = some fault.1.offset := by
  induction tokens generalizing opened with
  | nil => exact nofun
  | cons token rest ih =>
      intro fault hfault
      rw [passAll_cons] at hfault
      rcases List.mem_append.1 hfault with hown | hlater
      · obtain ⟨error, herror, rfl⟩ := List.mem_map.1 hown
        have herror := Option.mem_toList.1 herror
        exact ⟨isCloser_of_fault herror, (symbol_of_fault herror).2⟩
      · exact ih _ fault hlater

/-- The errors that faults are reported as. -/
def errorsOf (faults : List (Token × BalanceError)) : List LexError :=
  faults.map fun fault => .balance fault.2

theorem errorsOf_append (faults more : List (Token × BalanceError)) :
    errorsOf (faults ++ more) = errorsOf faults ++ errorsOf more := List.map_append

/-- The errors that delimiters are reported as that are open at the end. -/
def leftOpen (opened : List Bracket) : List LexError :=
  opened.map fun bracket => .balance (.unclosedDelimiter bracket.closer)

theorem kinds_leftOpen {opened : List Bracket} : ∀ error ∈ leftOpen opened,
    error.isUnclosedDelimiter = true ∧ error.isUnexpectedCloser = false
      ∧ error.isMismatchedCloser = false := by
  intro error herror
  obtain ⟨bracket, -, rfl⟩ := List.mem_map.1 herror
  exact ⟨rfl, rfl, rfl⟩

/-- Faults point at tokens, so none of them is about what is open at the
end. -/
theorem kinds_passAll (opened : List Bracket) (tokens : List Token) :
    ∀ error ∈ errorsOf (passAll opened tokens).2, error.isUnclosedDelimiter = false := by
  intro error herror
  obtain ⟨⟨token, error⟩, hfault, rfl⟩ := List.mem_map.1 herror
  obtain ⟨-, hplace⟩ := passAll_blames opened tokens _ hfault
  cases error with
  | unclosedDelimiter => cases hplace
  | unexpectedCloser | mismatchedCloser => rfl

/-- There are no more faults than closers. -/
theorem length_passAll_le (opened : List Bracket) (tokens : List Token) :
    (passAll opened tokens).2.length ≤ tokens.countP Token.isCloser := by
  have hall : ((passAll opened tokens).2.map Prod.fst).countP Token.isCloser
      = (passAll opened tokens).2.length := by
    rw [← List.length_map Prod.fst, List.countP_eq_length]
    intro token htoken
    obtain ⟨fault, hfault, rfl⟩ := List.mem_map.1 htoken
    exact (passAll_blames opened tokens fault hfault).1
  rw [← hall]
  exact (passAll_sublist opened tokens).countP_le

/-- A token puts a delimiter on the stack, or takes one off, or finds none
to take off, or does nothing. -/
theorem pass_count (opened : List Bracket) (token : Token) :
    opened.length + [token].countP Token.isOpener
        + (errorsOf ((pass opened token).2.toList.map (token, ·))).countP
          LexError.isUnexpectedCloser
      = [token].countP Token.isCloser + (pass opened token).1.length := by
  have hpasses := passes opened token
  generalize pass opened token = verdict at hpasses ⊢
  obtain ⟨next, fault⟩ := verdict
  rw [List.countP_singleton, List.countP_singleton]
  cases hpasses with
  | other _ hother =>
      have hopener : token.isOpener = false :=
        Bool.eq_false_iff.2 fun h => (isOpener_iff.1 h).elim fun b => (hother b).1
      have hcloser : token.isCloser = false :=
        Bool.eq_false_iff.2 fun h => (isCloser_iff.1 h).elim fun b => (hother b).2
      simp [hopener, hcloser, errorsOf]
  | opens _ hmark => simp [isOpener_iff.2 ⟨_, hmark⟩, isCloser_of_opener hmark, errorsOf]
  | closes _ hmark =>
      simp [isCloser_iff.2 ⟨_, hmark⟩, isOpener_of_closer hmark, errorsOf, Nat.add_comm]
  | unexpected hmark =>
      simp [isCloser_iff.2 ⟨_, hmark⟩, isOpener_of_closer hmark, errorsOf,
        LexError.isUnexpectedCloser]
  | mismatched outer hmark hother =>
      simp [isCloser_iff.2 ⟨_, hmark⟩, isOpener_of_closer hmark, errorsOf,
        LexError.isUnexpectedCloser, Nat.add_comm]

/-- So what goes on the stack comes off by a closer, or stays, and the
closers too many are those that find nothing open. -/
theorem passAll_count (opened : List Bracket) (tokens : List Token) :
    opened.length + tokens.countP Token.isOpener
        + (errorsOf (passAll opened tokens).2).countP LexError.isUnexpectedCloser
      = tokens.countP Token.isCloser + (passAll opened tokens).1.length := by
  induction tokens generalizing opened with
  | nil =>
      show opened.length + 0 + 0 = 0 + opened.length
      omega
  | cons token rest ih =>
      have hfirst := pass_count opened token
      have hrest := ih (pass opened token).1
      rw [passAll_cons, errorsOf_append, List.countP_append, ← List.singleton_append,
        List.countP_append, List.countP_append]
      dsimp only
      omega

end Nesting

namespace LexError

/-- A closer is not at fault in two ways. -/
theorem countP_closers_le (errors : List LexError) :
    errors.countP isUnexpectedCloser + errors.countP isMismatchedCloser ≤ errors.length := by
  have hapart : errors.countP isMismatchedCloser
      ≤ errors.countP fun error => decide ¬ error.isUnexpectedCloser = true := by
    refine List.countP_mono_left fun error _ h => ?_
    cases error with
    | balance error =>
        cases error with
        | mismatchedCloser => rfl
        | unexpectedCloser | unclosedDelimiter => cases h
    | failure | endOfInput | invalidPushback => cases h
  have hall := List.length_eq_countP_add_countP isUnexpectedCloser (l := errors)
  omega

end LexError

-- ============================================================ the account

/-- Where places ascend, one token only has the place of a token. -/
theorem filter_offset {tokens : List Token}
    (hascend : tokens.Pairwise fun a b => a.offset < b.offset) {token : Token}
    (htoken : token ∈ tokens) :
    tokens.filter (fun other => other.offset = token.offset) = [token] := by
  induction tokens with
  | nil => cases htoken
  | cons first rest ih =>
      obtain ⟨hfirst, hrest⟩ := List.pairwise_cons.1 hascend
      rcases List.mem_cons.1 htoken with rfl | htoken
      · have hothers : rest.filter (fun other => other.offset = token.offset) = [] := by
          refine List.filter_eq_nil_iff.2 fun other hother => ?_
          have hbehind := hfirst other hother
          rw [decide_eq_true_iff]
          omega
        rw [List.filter_cons_of_pos (by simp), hothers]
      · have hbefore := hfirst token htoken
        rw [List.filter_cons_of_neg (by simpa using Nat.ne_of_lt hbefore), ih hrest htoken]

/-- The errors account for every delimiter among the tokens, once. -/
structure Accounted (tokens : List Token) (errors : List LexError) : Prop where
  /-- The delimiters that are open at the end are openers. -/
  unclosed_le : errors.countP LexError.isUnclosedDelimiter ≤ tokens.countP Token.isOpener
  /-- The closers that find nothing open are closers. -/
  unexpected_le : errors.countP LexError.isUnexpectedCloser ≤ tokens.countP Token.isCloser
  /-- The other openers are as many as the other closers. -/
  balance : tokens.countP Token.isOpener - errors.countP LexError.isUnclosedDelimiter
    = tokens.countP Token.isCloser - errors.countP LexError.isUnexpectedCloser
  /-- Among these closers are those that match nothing. -/
  mismatched_le : errors.countP LexError.isMismatchedCloser
    ≤ tokens.countP Token.isCloser - errors.countP LexError.isUnexpectedCloser
  /-- What is open at the end is told last. -/
  unclosed_last : errors
    = errors.filter (!·.isUnclosedDelimiter) ++ errors.filter (·.isUnclosedDelimiter)
  /-- The errors before point at closers, one behind the other, and each of
  these is one of the tokens, and the only one at its place. -/
  closers : ∃ atFault : List Token,
    (errors.filter (!·.isUnclosedDelimiter)).map (·.offset?)
        = atFault.map (fun token => some token.offset)
      ∧ atFault.Pairwise (fun a b => a.offset < b.offset)
      ∧ ∀ token ∈ atFault, token.isCloser = true
        ∧ tokens.filter (fun other => other.offset = token.offset) = [token]

namespace Nesting

variable (tokens : List Token)

/-- The errors of tokens that the input begins and ends with. -/
def complaints : List LexError :=
  errorsOf (passAll [] tokens).2 ++ leftOpen (passAll [] tokens).1

/-- The errors about closers come first. -/
theorem complaints_filter :
    (complaints tokens).filter (!·.isUnclosedDelimiter) = errorsOf (passAll [] tokens).2
      ∧ (complaints tokens).filter (·.isUnclosedDelimiter) = leftOpen (passAll [] tokens).1 := by
  have hclosers := kinds_passAll [] tokens
  have hleft := @kinds_leftOpen (passAll [] tokens).1
  rw [complaints, List.filter_append, List.filter_append]
  constructor
  · rw [List.filter_eq_self.2 fun error h => by rw [hclosers error h]; rfl,
      List.filter_eq_nil_iff.2 fun error h => by rw [(hleft error h).1]; decide,
      List.append_nil]
  · rw [List.filter_eq_nil_iff.2 fun error h => by rw [hclosers error h]; decide,
      List.filter_eq_self.2 fun error h => (hleft error h).1, List.nil_append]

/-- What is no error about what is open at the end is counted among the
faults. -/
theorem countP_complaints {kind : LexError → Bool}
    (hkind : ∀ error ∈ leftOpen (passAll [] tokens).1, kind error = false) :
    (complaints tokens).countP kind = (errorsOf (passAll [] tokens).2).countP kind := by
  rw [complaints, List.countP_append, Nat.add_eq_left, List.countP_eq_zero]
  intro error h
  rw [hkind error h]
  decide

/-- The errors of tokens at ascending places account for their delimiters. -/
theorem complaints_accounted (hascend : tokens.Pairwise fun a b => a.offset < b.offset) :
    Accounted tokens (complaints tokens) := by
  obtain ⟨hfaults, hopen⟩ := complaints_filter tokens
  have hunclosed : (complaints tokens).countP LexError.isUnclosedDelimiter
      = (passAll [] tokens).1.length := by
    rw [List.countP_eq_length_filter, hopen, leftOpen, List.length_map]
  have hunexpected := countP_complaints tokens fun error h => (kinds_leftOpen error h).2.1
  have hmismatched := countP_complaints tokens fun error h => (kinds_leftOpen error h).2.2
  have hstack := passAll_count [] tokens
  have hkinds := LexError.countP_closers_le (errorsOf (passAll [] tokens).2)
  have hclosers := length_passAll_le [] tokens
  rw [errorsOf, List.length_map, ← errorsOf] at hkinds
  rw [List.length_nil] at hstack
  refine ⟨by omega, by omega, by omega, by omega, ?_, ?_⟩
  · rw [hfaults, hopen]
    rfl
  · refine ⟨(passAll [] tokens).2.map Prod.fst, ?_, ?_, ?_⟩
    · rw [hfaults, errorsOf, List.map_map, List.map_map]
      refine List.map_congr_left fun fault hfault => ?_
      exact (passAll_blames [] tokens fault hfault).2
    · exact hascend.sublist (passAll_sublist [] tokens)
    · intro token htoken
      have hmem := (passAll_sublist [] tokens).subset htoken
      obtain ⟨fault, hfault, rfl⟩ := List.mem_map.1 htoken
      exact ⟨(passAll_blames [] tokens fault hfault).1, filter_offset hascend hmem⟩

end Nesting

namespace Scan

open Nesting

-- ============================================================== the course

/-- The errors of a course that comes to the end: the faults of the tokens,
and behind them the delimiters that are open. -/
theorem errors_course (opened : List Bracket) (line : Nat) (tokens : List Token) :
    (course .endOfInput opened line tokens).filterMap Step.error?
      = errorsOf (passAll opened tokens).2
        ++ leftOpen (passAll opened tokens).1 := by
  induction tokens generalizing opened line with
  | nil =>
      show (closing line opened).filterMap Step.error? = leftOpen opened
      rw [closing, List.filterMap_append, List.filterMap_map]
      exact (List.append_nil _).trans (congrFun List.filterMap_eq_map opened)
  | cons token rest ih =>
      have hfaults : ((pass opened token).2.toList.map fun error =>
            Step.raises (.balance error) (token.behind line)).filterMap Step.error?
          = errorsOf ((pass opened token).2.toList.map (token, ·)) := by
        cases (pass opened token).2 <;> rfl
      rw [course_cons, passAll_cons, errorsOf_append, List.filterMap_append, List.append_assoc,
        hfaults]
      exact congrArg (_ ++ ·) (ih _ _)

section Completed

variable {preferences : ScanPreferences} {source : CharSource}

/-- A scan that goes on at faults in the nesting and meets nothing that is
final has come to the end of its source. -/
theorem last_of_completed (hstop : preferences.stopOnBalanceError = false)
    (hcompleted : ∀ fault ∈ faults preferences (checker source),
      isFinal preferences fault.error = false) :
    (Stream.ofSource source).delivered.last = .endOfInput := by
  rcases Stream.last_delivered source with hend | hfatal
  · exact hend
  · -- the failure is the last step, and it is final
    exfalso
    have hmet : (Stream.ofSource source).delivered.last
        ∈ (faults preferences (checker source)).map (·.error) := by
      obtain ⟨front, hcourse, -⟩ := course_goesOn hstop (Stream.ofSource source).delivered.last
        [] 1 (Stream.ofSource source).delivered.tokens
      rw [errors_faults, steps_lenient hstop, courseOf, hcourse, List.filterMap_append]
      refine List.mem_append_right _ (List.mem_filterMap.2 ⟨_, List.mem_singleton_self _, ?_⟩)
      refine if_neg fun hend => ?_
      rw [hend] at hfatal
      cases hfatal
    obtain ⟨fault, hfault, herror⟩ := List.mem_map.1 hmet
    have hgo := isFatal_of_not_final (hcompleted fault hfault)
    rw [herror, hfatal] at hgo
    cases hgo

/-- The tokens and errors of such a scan. -/
theorem account_completed (hstop : preferences.stopOnBalanceError = false)
    (hcompleted : ∀ fault ∈ faults preferences (checker source),
      isFinal preferences fault.error = false) :
    let tokens := (Stream.ofSource source).delivered.tokens
    (scanned preferences (checker source)).map (·.token) = tokens
      ∧ (faults preferences (checker source)).map (·.error)
        = complaints tokens := by
  intro tokens
  have hend := last_of_completed hstop hcompleted
  have hsteps := steps_lenient hstop source
  rw [courseOf, hend] at hsteps
  rw [tokens_scanned, errors_faults, hsteps, tokens_course, errors_course]
  exact ⟨rfl, rfl⟩

end Completed

end Scan

-- ========================================================= the main result

/-- The tokens of a source stand at ascending places. -/
theorem offsets_ascend (source : CharSource) :
    (Stream.ofSource source).delivered.tokens.Pairwise fun a b => a.offset < b.offset := by
  obtain ⟨stop, htiles, -⟩ := Delivery.ofText_tiles 0 source.drain.1.toList
  rw [Stream.tokens_delivered]
  refine htiles.pairwise.imp_of_mem fun {a b} ha _ hapart => ?_
  have hchars := mt String.length_eq_zero_iff.1 (htiles.nonempty a ha)
  omega

/-- A scan that goes on at faults in the nesting and comes to the end of
its source accounts for every delimiter once. Its tokens are the ones that
the report counts, and its errors are as many as the report tells of, kept
or dropped. -/
theorem delimiters_accounted (name : String) (source : CharSource)
    (preferences : ScanPreferences) (session : Log.Session)
    (hstop : preferences.stopOnBalanceError = false)
    (hcompleted : (scan name source preferences session).1.completed = true) :
    let report := (scan name source preferences session).1
    let given := Scan.scanned preferences (Scan.checker source)
    let errors := (Scan.faults preferences (Scan.checker source)).map (·.error)
    report.counts = tally given
      ∧ report.errorCount = errors.length
      ∧ Accounted (given.map (·.token)) errors := by
  intro report given errors
  obtain ⟨hgiven, herrors⟩ := Scan.account_completed hstop
    ((Scan.completed_scan_iff name source preferences session).1 hcompleted)
  refine ⟨?_, ?_, ?_⟩
  · exact congrArg Report.counts (Scan.report_eq name source preferences session)
  · exact (Scan.errorCount_scan ..).trans (List.length_map _).symm
  · rw [hgiven, show errors = _ from herrors]
    exact Nesting.complaints_accounted _ (offsets_ascend source)

/-- Two openers and three closers: one of the closers does not match, two
find nothing open, and an opener is open at the end. -/
theorem delimiters_accounted_mixed :
    let source := CharSource.ofString "(] )) ["
    let given := Scan.scanned ⟨false, false, 1⟩ (Scan.checker source)
    let errors := (Scan.faults ⟨false, false, 1⟩ (Scan.checker source)).map (·.error)
    let report := (scan "mixed" source ⟨false, false, 1⟩ {}).1
    report.completed = true
      ∧ errors = [.balance (.mismatchedCloser ')' ']' 1), .balance (.unexpectedCloser ')' 3),
        .balance (.unexpectedCloser ')' 4), .balance (.unclosedDelimiter ']')]
      ∧ report.counts = tally given
      ∧ report.errorCount = errors.length
      ∧ Accounted (given.map (·.token)) errors := by
  intro source given errors report
  have hcompleted : (scan "mixed" source ⟨false, false, 1⟩ {}).1.completed = true := by
    decide +kernel
  refine ⟨hcompleted, ?_, delimiters_accounted "mixed" source ⟨false, false, 1⟩ {} rfl hcompleted⟩
  decide +kernel

end LayeredLexer
