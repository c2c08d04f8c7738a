/-
Lines at the end of the range. Lines are counted up to a greatest one, and
the line that a blank or a comment starts on is found by taking its own
line ends off the line behind it again. Up to the greatest line these two
undo each other. Past it they do not: what was never added is taken off.

# The line of a token

A token that does not run past the greatest line starts where the counter
stood before it (`startLine_of_not_overruns`). One that does run past it is
given the greatest line less all of its line ends, which is less than that
(`startLine_of_overruns`), and can be less than the line of a token before
it, or nought. So the lines of a report go up exactly if none of the tokens
that are kept does this (`lines_ascend_iff`).
-/
import LayeredLexer.Proofs.Lexer.Locality
import LayeredLexer.Proofs.Scan.Lines

namespace LayeredLexer

/-- The lines of the kept tokens begin at one or later, never go back, and
do not go past the line that is reached. -/
structure LinesAscend (report : Report) : Prop where
  positive : ∀ scanned ∈ report.tokens, 1 ≤ scanned.line
  ascend : report.tokens.toList.Pairwise fun a b => a.line ≤ b.line
  bounded : ∀ scanned ∈ report.tokens, scanned.line ≤ report.lines

/-- Whether a token behind some others runs past the greatest line. -/
structure Overruns (before : List Token) (token : Token) : Prop where
  trivia : token.isTrivia = true
  some : 0 < token.newlines
  past : maxLine < 1 + triviaLineEnds before + token.newlines

namespace Scan

-- ======================================================== one token's line

section StartLine

variable {before : List Token} {token : Token}

/-- A token that runs past the greatest line is given what is left of it
without the token's line ends. -/
theorem startLine_of_overruns (h : Overruns before token) :
    startLine token (reached 1 (before ++ [token])) = maxLine - token.newlines := by
  have hpast := h.past
  rw [startLine, reached_eq (by decide), triviaLineEnds_append, token.lineEnds_eq,
    triviaLineEnds_singleton, if_pos h.trivia]
  omega

/-- Any other token starts on the line behind those before it. -/
theorem startLine_of_not_overruns (h : ¬ Overruns before token) :
    startLine token (reached 1 (before ++ [token])) = reached 1 before := by
  rw [startLine, reached_eq (by decide), reached_eq (by decide), triviaLineEnds_append,
    token.lineEnds_eq, triviaLineEnds_singleton]
  split
  next htrivia =>
    have hplace : ¬ (0 < token.newlines ∧ maxLine < 1 + triviaLineEnds before + token.newlines) :=
      fun hboth => h ⟨htrivia, hboth.1, hboth.2⟩
    omega
  next => omega

end StartLine

/-- The line that is reached does not go back. -/
theorem reached_mono (before after : List Token) : reached 1 before ≤ reached 1 (before ++ after) := by
  rw [reached_eq (by decide), reached_eq (by decide), triviaLineEnds_append]
  omega

-- ================================================== the tokens of a source

section Source

variable {source : CharSource} {preferences : ScanPreferences}
  {before after : List ScannedToken} {scanned : ScannedToken}

/-- The line of a token that is scanned is found from the tokens that were
scanned before it. -/
theorem line_of_scanned
    (h : Scan.scanned preferences (checker source) = before ++ scanned :: after) :
    scanned.line
      = startLine scanned.token (reached 1 (before.map (·.token) ++ [scanned.token])) := by
  have hsteps : Scan.scanned preferences (checker source)
      = (steps preferences (checker source)).filterMap fun step =>
          step.token?.map fun token => ⟨token, startLine token step.line⟩ := by
    rw [Scan.scanned, steps, List.filterMap_map]
    exact List.filterMap_congr fun answer _ => Step.scanned?_eq answer
  rw [hsteps] at h
  obtain ⟨front, rest, hsplit, hfront, hrest⟩ := List.filterMap_eq_append_iff.1 h
  obtain ⟨silent, step, back, rfl, hsilent, hstep, -⟩ := List.filterMap_eq_cons_iff.1 hrest
  obtain ⟨token, htoken, rfl⟩ := Option.map_eq_some_iff.1 hstep
  rw [← List.append_assoc] at hsplit
  obtain ⟨_, -, hfollows⟩ := follows_of_steps hsplit
  have hbefore : (front ++ silent).filterMap Step.token? = before.map (·.token) := by
    have hnone : silent.filterMap Step.token? = [] :=
      List.filterMap_eq_nil_iff.2 fun other hother => Option.map_eq_none_iff.1 (hsilent other hother)
    rw [List.filterMap_append, hnone, List.append_nil, ← hfront, List.map_filterMap]
    refine List.filterMap_congr fun other _ => ?_
    rw [Option.map_map]
    exact (Option.map_id' ..).symm
  have hline := hfollows.line_eq
  rw [hbefore, htoken] at hline
  exact congrArg (startLine token) hline

/-- It is not past the line that is reached behind the token. -/
theorem line_le_reached
    (h : Scan.scanned preferences (checker source) = before ++ scanned :: after) :
    scanned.line ≤ reached 1 (before.map (·.token) ++ [scanned.token]) := by
  rw [line_of_scanned h, startLine]
  exact Nat.sub_le _ _

/-- A token of a scan that overruns starts behind line nought, and behind
no token that was kept before it. -/
def Fits (preferences : ScanPreferences) (before : List ScannedToken) (scanned : ScannedToken) :
    Prop :=
  scanned.token.newlines < maxLine
    ∧ ∀ earlier ∈ before, keeps preferences earlier = true →
      earlier.line + scanned.token.newlines ≤ maxLine

/-- The lines of two kept tokens, the first one before the second. -/
theorem line_le_of_fits
    (h : Scan.scanned preferences (checker source) = before ++ scanned :: after)
    {earlier : ScannedToken} (hearlier : earlier ∈ before) (hkept : keeps preferences earlier = true)
    (hfits : Overruns (before.map (·.token)) scanned.token → Fits preferences before scanned) :
    earlier.line ≤ scanned.line := by
  rw [line_of_scanned h]
  by_cases hover : Overruns (before.map (·.token)) scanned.token
  · have hroom := (hfits hover).2 earlier hearlier hkept
    rw [startLine_of_overruns hover]
    omega
  · obtain ⟨front, middle, rfl⟩ := List.append_of_mem hearlier
    rw [startLine_of_not_overruns hover]
    have hsplit : Scan.scanned preferences (checker source)
        = front ++ earlier :: (middle ++ scanned :: after) := by
      rw [h, List.append_assoc, List.cons_append]
    have hle := line_le_reached hsplit
    have hmono := reached_mono (front.map (·.token) ++ [earlier.token]) (middle.map (·.token))
    simp only [List.map_append, List.map_cons, List.append_assoc, List.singleton_append]
      at hle hmono ⊢
    exact hle.trans hmono

end Source

end Scan

/-- Elements are related in pairs if each is to those before it. -/
theorem pairwise_of_splits {α : Type} {R : α → α → Prop} {l : List α}
    (h : ∀ before a after, l = before ++ a :: after → ∀ b ∈ before, R b a) : l.Pairwise R := by
  refine List.pairwise_iff_forall_sublist.2 fun {a b} hpair => ?_
  obtain ⟨front, back, rfl, ha, hb⟩ := List.cons_sublist_iff.1 hpair
  obtain ⟨middle, after, rfl⟩ := List.append_of_mem (List.singleton_sublist.1 hb)
  exact h (front ++ middle) b after (List.append_assoc ..).symm a (List.mem_append_left _ ha)

-- ======================================================== the main result

/-- The lines of a report, for a source of any length. No kept token has a
line past the one that is reached. The lines begin at one and go up exactly
if every kept blank or comment that runs past the greatest line has fewer
line ends than there are lines, and no more than there are lines left
behind the line of each token that was kept before it. -/
theorem lines_ascend_iff (name : String) (source : CharSource) (preferences : ScanPreferences)
    (session : Log.Session) :
    let report := (scan name source preferences session).1
    let given := Scan.scanned preferences (Scan.checker source)
    (∀ scanned ∈ report.tokens, scanned.line ≤ report.lines)
      ∧ (LinesAscend report
        ↔ ∀ before scanned after, given = before ++ scanned :: after →
            Scan.keeps preferences scanned = true →
              Overruns (before.map (·.token)) scanned.token →
                Scan.Fits preferences before scanned) := by
  intro report given
  have hreport : report = _ := Scan.report_eq name source preferences session
  have htokens : report.tokens = (given.filter (Scan.keeps preferences)).toArray := by
    rw [hreport]
    rfl
  have hmem {scanned : ScannedToken} (h : scanned ∈ report.tokens) :
      Scan.keeps preferences scanned = true
        ∧ ∃ before after, given = before ++ scanned :: after := by
    rw [htokens, List.mem_toArray, List.mem_filter] at h
    exact ⟨h.2, List.append_of_mem h.1⟩
  have hbounded : ∀ scanned ∈ report.tokens, scanned.line ≤ report.lines := by
    intro scanned hscanned
    obtain ⟨-, before, after, hsplit⟩ := hmem hscanned
    have hlines : report.lines = reached 1 (given.map (·.token)) := by
      rw [hreport]
      exact (Scan.scanned_isPrefix preferences source).2
    have hmono := Scan.reached_mono (before.map (·.token) ++ [scanned.token])
      (after.map (·.token))
    rw [hlines, hsplit, List.map_append, List.map_cons, List.append_cons]
    exact (Scan.line_le_reached hsplit).trans hmono
  refine ⟨hbounded, ?_, ?_⟩
  · intro hascend before scanned after hsplit hkept hover
    have hline := Scan.line_of_scanned hsplit
    rw [Scan.startLine_of_overruns hover] at hline
    have hkeptList : report.tokens.toList
        = before.filter (Scan.keeps preferences)
          ++ scanned :: after.filter (Scan.keeps preferences) := by
      rw [htokens, hsplit, List.filter_append, List.filter_cons_of_pos hkept]
    have hscanned : scanned ∈ report.tokens := by
      rw [← Array.mem_toList_iff, hkeptList]
      exact List.mem_append_right _ List.mem_cons_self
    have hpositive := hascend.positive scanned hscanned
    refine ⟨by omega, fun earlier hearlier hkeeps => ?_⟩
    have hpairs := hascend.ascend
    rw [hkeptList, List.pairwise_append] at hpairs
    have hle := hpairs.2.2 earlier (List.mem_filter.2 ⟨hearlier, hkeeps⟩) scanned
      List.mem_cons_self
    omega
  · intro hfits
    refine ⟨fun scanned hscanned => ?_, ?_, hbounded⟩
    · obtain ⟨hkept, before, after, hsplit⟩ := hmem hscanned
      rw [Scan.line_of_scanned hsplit]
      by_cases hover : Overruns (before.map (·.token)) scanned.token
      · have hroom := (hfits before scanned after hsplit hkept hover).1
        rw [Scan.startLine_of_overruns hover]
        omega
      · rw [Scan.startLine_of_not_overruns hover]
        exact Scan.reached_mono [] _
    · rw [htokens, List.pairwise_filter]
      refine pairwise_of_splits fun before scanned after hsplit earlier hearlier => ?_
      intro hearly hkept
      exact Scan.line_le_of_fits hsplit hearlier hearly
        (hfits before scanned after hsplit hkept)

-- ========================================================== a long text

/-- A text of line ends. -/
def lineEndsOnly (n : Nat) : String := String.ofList (List.replicate n '\n')

/-- A text of line ends is one space. -/
theorem delivered_lineEndsOnly {n : Nat} (hn : 0 < n) :
    (Stream.ofSource (.ofString (lineEndsOnly n))).delivered
      = ⟨[⟨.space, lineEndsOnly n, 0⟩], .endOfInput⟩ := by
  have hblank : isBlank '\n' = true := by decide
  have hspace : (Phase.fresh.span (List.replicate n '\n' ++ [])).lexeme
      = .token .space (List.replicate n '\n') := by
    obtain ⟨m, rfl⟩ := Nat.exists_eq_add_of_lt hn
    have hrun : (List.replicate (0 + m) '\n').takeWhile isBlank = List.replicate (0 + m) '\n' :=
      List.takeWhile_eq_self_iff.2 fun c hc => List.eq_of_mem_replicate hc ▸ hblank
    rw [List.append_nil, List.replicate_succ,
      Phase.span_extend (show Phase.fresh.move '\n' = .extend .space by decide),
      Span.lexeme_cons, Phase.lexeme_space, hrun]
    rfl
  have hne : List.replicate n '\n' ≠ [] := by
    rw [ne_eq, List.replicate_eq_nil_iff]
    omega
  have hread := Delivery.ofText_token 0 hne hspace
  rw [List.append_nil, Delivery.ofText_nil] at hread
  rw [Stream.delivered_ofString, lineEndsOnly, String.toList_ofList, hread]
  rfl

/-- If it has as many line ends as there are lines, the space is given
line nought. -/
theorem scanned_lineEndsOnly {n : Nat} (hn : maxLine ≤ n) {preferences : ScanPreferences}
    (hstop : preferences.stopOnBalanceError = false) :
    Scan.scanned preferences (Scan.checker (.ofString (lineEndsOnly n)))
      = [⟨⟨.space, lineEndsOnly n, 0⟩, 0⟩] := by
  have hpositive : 0 < n := Nat.lt_of_lt_of_le (by decide) hn
  have htokens := Scan.tokens_scanned preferences (Scan.checker (.ofString (lineEndsOnly n)))
  rw [Scan.steps_lenient hstop, Scan.courseOf, Scan.tokens_course,
    delivered_lineEndsOnly hpositive] at htokens
  obtain ⟨scanned, hscanned, htoken⟩ := List.map_eq_singleton_iff.1 htokens
  have hnewlines : scanned.token.newlines = n := by
    rw [htoken, Token.newlines, lineEndsOnly, String.toList_ofList, List.count_replicate_self]
  have hover : Overruns [] scanned.token :=
    ⟨by rw [htoken]; rfl, by omega, by omega⟩
  have hline : scanned.line = Scan.startLine scanned.token
      (reached 1 (([] : List ScannedToken).map (·.token) ++ [scanned.token])) :=
    Scan.line_of_scanned hscanned
  rw [List.map_nil, Scan.startLine_of_overruns hover, hnewlines, Nat.sub_eq_zero_of_le hn] at hline
  rw [hscanned, ← htoken, ← hline]

/-- So the lines of a report do not always begin at one: a text with as
many line ends as there are lines begins on line nought. -/
theorem line_nought :
    ¬ LinesAscend
      (scan "long" (.ofString (lineEndsOnly maxLine)) ⟨true, false, 0⟩ {}).1 := by
  intro hascend
  have hscanned := @scanned_lineEndsOnly maxLine (Nat.le_refl _) ⟨true, false, 0⟩ rfl
  have hkept : (⟨⟨.space, lineEndsOnly maxLine, 0⟩, 0⟩ : ScannedToken)
      ∈ (scan "long" (.ofString (lineEndsOnly maxLine)) ⟨true, false, 0⟩ {}).1.tokens := by
    rw [Scan.report_eq]
    show _ ∈ (List.filter _ (Scan.scanned _ _)).toArray
    rw [hscanned]
    exact List.mem_toArray.2 (List.mem_filter.2 ⟨List.mem_cons_self, rfl⟩)
  exact absurd (hascend.positive _ hkept) (by decide)

end LayeredLexer
