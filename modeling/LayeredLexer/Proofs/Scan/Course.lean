/-
The course of a scan, read off what its tokenizer delivers. A scan asks a
balance check, the check asks a line counter and the counter the
tokenizer, and what each of them holds in between is seen by nobody. What
is seen is a list of steps: the items that the scan is answered with, and
the line that is reached with each. `course` gives the steps by recursion
on the delivered tokens, with no streams in it, and `steps_course` ties it
to the layers.

# Where a scan stops

The course goes on past every fault in the nesting. What the preferences
decide is only how much of it there is (`through`), so a scan that stops
early has the first steps of one that goes on.

# What a step stands behind

A step follows some of the tokens and comes before the others, and these
two decide everything about it (`Follows`): a token is the next one of the
others, a closer at fault is the next one too, and the end comes behind
the last. The line is the one behind the tokens that have been delivered.
That goes for the closer at fault as well, which the counter has counted
already, because a symbol has no line ends that count.
-/
import LayeredLexer.Proofs.Nesting.Scan
import LayeredLexer.Proofs.Stream.Layers

namespace LayeredLexer

-- =============================================================== the check

namespace Bracket

theorem opener_mem_delimiters (b : Bracket) : b.opener ∈ delimiters := by
  cases b <;> decide

theorem closer_mem_delimiters (b : Bracket) : b.closer ∈ delimiters := by
  cases b <;> decide

end Bracket

namespace Nesting

/-- What is open behind a token, and the fault that it has. -/
def pass (opened : List Bracket) (token : Token) : List Bracket × Option BalanceError :=
  match symbol? token with
  | none => (opened, none)
  | some c => check opened c token.offset

/-- A check that pulls a token holds it, and lets it pass. -/
theorem receive_eq_pass (nesting : Nesting) (token : Token) :
    nesting.receive token
      = (⟨some token, (pass nesting.opened token).1,
          (pass nesting.opened token).2.or nesting.error⟩,
        (pass nesting.opened token).2) := by
  unfold receive pass
  cases symbol? token <;> rfl

/-- Closing takes the innermost opener off and reports it, if one is open. -/
theorem close_nil {nesting : Nesting} (h : nesting.opened = []) :
    nesting.close = (nesting, none) := by
  unfold close
  rw [h]

theorem close_cons {nesting : Nesting} {innermost : Bracket} {outer : List Bracket}
    (h : nesting.opened = innermost :: outer) :
    nesting.close
      = (⟨nesting.pending, outer, some (.unclosedDelimiter innermost.closer)⟩,
        some (.unclosedDelimiter innermost.closer)) := by
  unfold close
  rw [h]

theorem kind_of_symbol? {token : Token} {c : Char} (h : symbol? token = some c) :
    token.kind = .symbol := by
  unfold symbol? at h
  split at h
  · assumption
  · cases h

/-- How a token passes: what is open before it and behind it, and the
fault that it has. -/
inductive Passes (token : Token) : List Bracket → List Bracket → Option BalanceError → Prop
  | other (opened : List Bracket)
      (hother : ∀ b : Bracket, symbol? token ≠ some b.opener ∧ symbol? token ≠ some b.closer) :
      Passes token opened opened none
  | opens (opened : List Bracket) {b : Bracket} (hopener : symbol? token = some b.opener) :
      Passes token opened (b :: opened) none
  | closes (outer : List Bracket) {b : Bracket} (hcloser : symbol? token = some b.closer) :
      Passes token (b :: outer) outer none
  | unexpected {b : Bracket} (hcloser : symbol? token = some b.closer) :
      Passes token [] [] (some (.unexpectedCloser b.closer token.offset))
  | mismatched (outer : List Bracket) {b innermost : Bracket}
      (hcloser : symbol? token = some b.closer) (hother : innermost ≠ b) :
      Passes token (innermost :: outer) outer
        (some (.mismatchedCloser innermost.closer b.closer token.offset))

theorem passes (opened : List Bracket) (token : Token) :
    Passes token opened (pass opened token).1 (pass opened token).2 := by
  unfold pass
  cases hsymbol : symbol? token with
  | none => exact .other opened fun b => by simp [hsymbol]
  | some c =>
      by_cases hc : c ∈ delimiters
      · obtain ⟨b, rfl | rfl⟩ := Bracket.of_mem_delimiters hc
        · dsimp only
          rw [check_opener]
          exact .opens opened hsymbol
        · cases opened with
          | nil =>
              dsimp only
              rw [check_closer_nil]
              exact .unexpected hsymbol
          | cons innermost outer =>
              dsimp only
              rw [check_closer_cons]
              by_cases hsame : innermost = b
              · rw [if_pos hsame, hsame]
                exact .closes outer hsymbol
              · rw [if_neg hsame]
                exact .mismatched outer hsymbol hsame
      · dsimp only
        rw [check_other opened token.offset hc]
        refine .other opened fun b => ?_
        rw [hsymbol]
        constructor
        · rintro ⟨⟩
          exact hc b.opener_mem_delimiters
        · rintro ⟨⟩
          exact hc b.closer_mem_delimiters

/-- What has a fault is a symbol, and the fault points at it. -/
theorem symbol_of_fault {opened : List Bracket} {token : Token} {error : BalanceError}
    (h : (pass opened token).2 = some error) :
    token.kind = .symbol ∧ error.offset? = some token.offset := by
  have hpasses := passes opened token
  rw [h] at hpasses
  generalize (pass opened token).1 = next at hpasses
  cases hpasses with
  | unexpected hcloser | mismatched outer hcloser => exact ⟨kind_of_symbol? hcloser, rfl⟩

end Nesting

-- ================================================================ the line

/-- The line behind a token. -/
def Token.behind (line : Nat) (token : Token) : Nat := min (line + token.lineEnds) maxLine

/-- The line behind some tokens. -/
def reached (line : Nat) (tokens : List Token) : Nat := tokens.foldl Token.behind line

theorem reached_le {line : Nat} (h : line ≤ maxLine) (tokens : List Token) :
    reached line tokens ≤ maxLine := by
  induction tokens generalizing line with
  | nil => exact h
  | cons token rest ih => exact ih (Nat.min_le_right _ _)

/-- A symbol stands on one line. -/
theorem Token.behind_symbol {token : Token} (hkind : token.kind = .symbol) {line : Nat}
    (hline : line ≤ maxLine) : Token.behind line token = line := by
  have hplain : token.isTrivia = false := by
    rw [isTrivia, hkind]
    rfl
  rw [behind, lineEnds, hplain]
  exact Nat.min_eq_left hline

-- ============================================================== deliveries

namespace Stream

/-- A tokenizer that delivers nothing shows the end, or the failure. -/
theorem peek_of_delivered_nil {t : Tokenizer} {last : LexError}
    (h : (tokenizer t).delivered = ⟨[], last⟩) :
    (tokenizer t).peek.result = .ok none ∧ last = .endOfInput
      ∨ (tokenizer t).peek.result = .error last ∧ last.isFatal = true := by
  rcases hshown : (tokenizer t).peek.result with error | _ | token
  · have hconsume := consume_of_peek_error hshown
    rw [delivered_error (congrArg Answer.result hconsume)] at h
    cases h
    have hlook : t.peek.2.1.look = .error last := by
      rw [← t.peek_eq_look]
      exact hshown
    exact .inr ⟨rfl, Tokenizer.look_error hlook⟩
  · have hconsume := consume_of_peek_end hshown
    rw [delivered_error (congrArg Answer.result hconsume)] at h
    cases h
    exact .inl ⟨rfl, rfl⟩
  · have hconsume := consume_of_peek_token hshown
    rw [delivered_ok (congrArg Answer.result hconsume)] at h
    cases h

/-- One that delivers a token first shows it, and delivers the others
behind it. -/
theorem peek_of_delivered_cons {t : Tokenizer} {token : Token} {rest : List Token}
    {last : LexError} (h : (tokenizer t).delivered = ⟨token :: rest, last⟩) :
    (tokenizer t).peek.result = .ok (some token)
      ∧ ∃ next, (tokenizer t).peek.stream.drop = .tokenizer next
        ∧ (tokenizer next).delivered = ⟨rest, last⟩ := by
  rcases hshown : (tokenizer t).peek.result with error | _ | shown
  · have hconsume := consume_of_peek_error hshown
    rw [delivered_error (congrArg Answer.result hconsume)] at h
    cases h
  · have hconsume := consume_of_peek_end hshown
    rw [delivered_error (congrArg Answer.result hconsume)] at h
    cases h
  · have hconsume := consume_of_peek_token hshown
    rw [delivered_ok (congrArg Answer.result hconsume), hconsume] at h
    obtain ⟨htokens, hlast⟩ := Delivery.mk.inj h
    obtain ⟨rfl, hrest⟩ := List.cons.inj htokens
    refine ⟨rfl, t.peek.2.1.drop, rfl, ?_⟩
    show delivered (tokenizer t).peek.stream.drop = _
    rw [← hrest, ← hlast]

end Stream

-- =============================================================== the steps

/-- A list through the first element that nothing may follow. -/
def through {α : Type} (goesOn : α → Bool) : List α → List α
  | [] => []
  | a :: rest => if goesOn a then a :: through goesOn rest else [a]

theorem through_isPrefix {α : Type} (goesOn : α → Bool) (l : List α) : through goesOn l <+: l := by
  induction l with
  | nil => exact List.nil_prefix
  | cons a rest ih =>
      unfold through
      split
      · exact (List.prefix_cons_inj a).2 ih
      · exact (List.prefix_cons_inj a).2 List.nil_prefix

/-- If only the last element can be one that nothing may follow, it is the
whole list. -/
theorem through_concat {α : Type} {goesOn : α → Bool} {l : List α}
    (h : ∀ a ∈ l, goesOn a = true) (last : α) : through goesOn (l ++ [last]) = l ++ [last] := by
  induction l with
  | nil =>
      show (if goesOn last then _ else _) = _
      split <;> rfl
  | cons a rest ih =>
      show (if goesOn a then _ else _) = _
      rw [if_pos (h a List.mem_cons_self)]
      exact congrArg (a :: ·) (ih fun b hb => h b (List.mem_cons_of_mem a hb))

namespace Scan

/-- An item that a scan is answered with, and the line that is reached. -/
structure Step where
  item : Item
  line : Nat

namespace Step

/-- What a scan sees of an answer. -/
def ofAnswer (answer : Answer Token) : Step := ⟨answer.result, answer.stream.line⟩

/-- The step that raises an error. -/
def raises (error : LexError) (line : Nat) : Step := ⟨.error error, line⟩

def token? (step : Step) : Option Token :=
  match step.item with
  | .ok token => some token
  | .error _ => none

/-- The error that a step raises. The end of the input is none. -/
def error? (step : Step) : Option LexError :=
  match step.item with
  | .ok _ => none
  | .error error => if error = .endOfInput then none else some error

def goesOn (preferences : ScanPreferences) (step : Step) : Bool :=
  Scan.goesOn preferences step.item

theorem scanned?_eq (answer : Answer Token) :
    scanned? answer
      = (ofAnswer answer).token?.map fun token =>
          ⟨token, startLine token (ofAnswer answer).line⟩ := by
  obtain ⟨item, next, events⟩ := answer
  cases item <;> rfl

theorem fault?_eq (answer : Answer Token) :
    fault? answer = (ofAnswer answer).error?.map (⟨·, (ofAnswer answer).line⟩) := by
  obtain ⟨item, next, events⟩ := answer
  cases item with
  | ok token => rfl
  | error error =>
      unfold fault? ofAnswer error?
      dsimp only
      split <;> rfl

end Step

/-- The steps at the end of the input: one for each delimiter that is
open, and the end itself. -/
def closing (line : Nat) (opened : List Bracket) : List Step :=
  opened.map (fun bracket => .raises (.balance (.unclosedDelimiter bracket.closer)) line)
    ++ [.raises .endOfInput line]

/-- The steps of a scan over tokens with an error behind them, with these
delimiters open and this line reached. -/
def course (last : LexError) (opened : List Bracket) (line : Nat) : List Token → List Step
  | [] => if last = .endOfInput then closing line opened else [.raises last line]
  | token :: rest =>
    let behind := token.behind line
    let (next, fault) := Nesting.pass opened token
    fault.toList.map (fun error => .raises (.balance error) behind)
      ++ ⟨.ok token, behind⟩ :: course last next behind rest

/-- The steps of a scan over what a tokenizer delivers. -/
def courseOf (d : Delivery) : List Step := course d.last [] 1 d.tokens

variable {preferences : ScanPreferences} {s : Stream}

/-- The steps of a scan. -/
def steps (preferences : ScanPreferences) (s : Stream) : List Step :=
  (answers preferences s).map Step.ofAnswer

/-- A step in front: what is consumed, and what the stream behind it
gives if the scan goes on. -/
theorem steps_cons {item : Item} {next : Stream} {events : List Log.Event} {line : Nat}
    {rest : List Step} (hconsume : s.consume = ⟨item, next, events⟩) (hline : next.line = line)
    (hrest : goesOn preferences item = true →
      steps preferences next = through (Step.goesOn preferences) rest) :
    steps preferences s = through (Step.goesOn preferences) (⟨item, line⟩ :: rest) := by
  have hfirst : Step.ofAnswer s.consume = ⟨item, line⟩ := by
    rw [hconsume, ← hline]
    rfl
  show (answers preferences s).map _ = if goesOn preferences item = true then _ else _
  split
  next hgo =>
    rw [← hrest hgo, steps, ← hfirst, answers_of_goesOn (by rw [hconsume]; exact hgo), hconsume]
    rfl
  next hstop =>
    have hstop : goesOn preferences s.consume.result = false := by
      rw [hconsume]
      exact eq_false_of_ne_true hstop
    rw [answers_of_stops hstop, ← hfirst]
    rfl

-- ====================================================== the layers together

/-- With a token in front a check that holds none makes the steps of the
token. -/
theorem steps_token {inner next : Stream} {token : Token} {nesting : Nesting}
    (hpending : nesting.pending = none) (hshown : inner.peek.result = .ok (some token))
    (hnext : inner.peek.stream.drop = next) {rest : List Step}
    (hrest : ∀ error, steps preferences
        (.balance ⟨none, (Nesting.pass nesting.opened token).1, error⟩ next)
      = through (Step.goesOn preferences) rest) :
    steps preferences (.balance nesting inner)
      = through (Step.goesOn preferences)
          ((Nesting.pass nesting.opened token).2.toList.map
              (fun error => .raises (.balance error) next.line)
            ++ ⟨.ok token, next.line⟩ :: rest) := by
  have hpeek := Stream.peek_balance_token hpending hshown
  rw [nesting.receive_eq_pass, hnext] at hpeek
  generalize Nesting.pass nesting.opened token = verdict at hpeek hrest ⊢
  obtain ⟨opened, fault⟩ := verdict
  cases fault with
  | none =>
      have hconsume := Stream.consume_of_peek_token (congrArg Answer.result hpeek)
      rw [hpeek] at hconsume
      exact steps_cons hconsume rfl fun _ => hrest _
  | some error =>
      -- the error comes first, and the next request takes the token
      have hconsume := Stream.consume_of_peek_error (congrArg Answer.result hpeek)
      rw [hpeek] at hconsume
      refine steps_cons hconsume rfl fun _ => ?_
      exact steps_cons (Stream.consume_balance_held rfl) rfl fun _ => hrest _

/-- At the end it makes those of the delimiters that are open. -/
theorem steps_end {inner : Stream} {nesting : Nesting} (hpending : nesting.pending = none)
    (hend : inner.peek.result = .ok none) :
    steps preferences (.balance nesting inner)
      = through (Step.goesOn preferences) (closing inner.peek.stream.line nesting.opened) := by
  -- each request takes one opener off
  induction hopened : nesting.opened generalizing nesting inner with
  | nil =>
      have hpeek := Stream.peek_balance_end hpending hend
      rw [Nesting.close_nil hopened] at hpeek
      have hconsume := Stream.consume_of_peek_end (congrArg Answer.result hpeek)
      rw [hpeek] at hconsume
      exact steps_cons hconsume rfl nofun
  | cons innermost outer ih =>
      have hpeek := Stream.peek_balance_end hpending hend
      rw [Nesting.close_cons hopened] at hpeek
      have hconsume := Stream.consume_of_peek_error (congrArg Answer.result hpeek)
      rw [hpeek] at hconsume
      have hagain := Stream.peek_peek_end hend
      have hrest := @ih inner.peek.stream
        ⟨nesting.pending, outer, some (.unclosedDelimiter innermost.closer)⟩
        hpending (congrArg Answer.result hagain) rfl
      rw [hagain] at hrest
      exact steps_cons hconsume rfl fun _ => hrest

/-- What is raised below is raised as it is, and is the last step if it is
fatal. -/
theorem steps_failure {inner : Stream} {nesting : Nesting} (hpending : nesting.pending = none)
    {error : LexError} (hraised : inner.peek.result = .error error) (hfatal : error.isFatal = true) :
    steps preferences (.balance nesting inner)
      = through (Step.goesOn preferences) [.raises error inner.peek.stream.line] := by
  have hpeek := Stream.peek_balance_error hraised hpending
  have hconsume := Stream.consume_of_peek_error (congrArg Answer.result hpeek)
  rw [hpeek] at hconsume
  refine steps_cons hconsume rfl fun hgo => ?_
  have hfinal := (goesOn_error_iff.1 hgo).2
  rw [isFinal, hfatal] at hfinal
  cases hfinal

/-- The steps of a scan over a tokenizer are the course of what it
delivers, through the first one at which the scan stops. -/
theorem steps_course (t : Tokenizer) {nesting : Nesting} (hpending : nesting.pending = none)
    (line : Nat) :
    steps preferences (.balance nesting (.lines ⟨none, line⟩ (.tokenizer t)))
      = through (Step.goesOn preferences)
          (course (Stream.tokenizer t).delivered.last nesting.opened line
            (Stream.tokenizer t).delivered.tokens) := by
  generalize hdelivered : (Stream.tokenizer t).delivered = d
  obtain ⟨tokens, last⟩ := d
  dsimp only
  -- the induction is on the tokens that are still to be delivered
  induction tokens generalizing t nesting line with
  | nil =>
      rcases Stream.peek_of_delivered_nil hdelivered with ⟨hend, rfl⟩ | ⟨hraised, hfatal⟩
      · have hlines := Stream.peek_lines_end hend line
        rw [steps_end hpending (congrArg Answer.result hlines), hlines]
        rfl
      · have hnone (token : Token) : (Stream.tokenizer t).peek.result ≠ .ok (some token) := by
          rw [hraised]
          nofun
        have hlines := Stream.peek_lines_pass hnone line
        rw [hraised] at hlines
        have hother : last ≠ .endOfInput := by
          rintro rfl
          cases hfatal
        rw [steps_failure hpending (congrArg Answer.result hlines) hfatal, hlines, course,
          if_neg hother]
        rfl
  | cons token rest ih =>
      obtain ⟨hshown, next, hnext, hrest⟩ := Stream.peek_of_delivered_cons hdelivered
      have hlines := Stream.peek_lines_token hshown line
      rw [hnext] at hlines
      have hbehind : (Stream.lines ⟨none, line⟩ (.tokenizer t)).peek.stream.drop
          = .lines ⟨none, token.behind line⟩ (.tokenizer next) := by
        rw [hlines]
        rfl
      exact steps_token hpending (congrArg Answer.result hlines) hbehind
        fun error => ih next rfl _ hrest

/-- The steps of a scan of a source. -/
theorem steps_checker (preferences : ScanPreferences) (source : CharSource) :
    steps preferences (checker source)
      = through (Step.goesOn preferences) (courseOf (Stream.ofSource source).delivered) :=
  steps_course (.ofSource source) rfl 1

-- ======================================================= what a step follows

section Follows

variable {last : LexError} {line : Nat} {opened : List Bracket} {tokens : List Token}

/-- A step that comes behind some tokens and before the others. -/
inductive Follows (last : LexError) (line : Nat) (before : List Token) :
    List Token → Step → Prop
  /-- The next token. -/
  | token (token : Token) (rest : List Token) :
      Follows last line before (token :: rest) ⟨.ok token, reached line (before ++ [token])⟩
  /-- A fault that the next token has. -/
  | fault {opened : List Bracket} {token : Token} {error : BalanceError} (rest : List Token)
      (hfault : (Nesting.pass opened token).2 = some error) :
      Follows last line before (token :: rest) (.raises (.balance error) (reached line before))
  /-- A delimiter that is open at the end. -/
  | unclosed (bracket : Bracket) (hend : last = .endOfInput) :
      Follows last line before []
        (.raises (.balance (.unclosedDelimiter bracket.closer)) (reached line before))
  /-- What comes last. -/
  | last : Follows last line before [] (.raises last (reached line before))

/-- The line is the one behind the tokens that have come, with this one. -/
theorem Follows.line_eq {before after : List Token} {step : Step}
    (h : Follows last line before after step) :
    step.line = reached line (before ++ step.token?.toList) := by
  cases h with
  | token token rest => rfl
  | fault | unclosed | last => exact congrArg (reached line) (List.append_nil before).symm

theorem Follows.cons {token : Token} {before after : List Token} {step : Step}
    (h : Follows last (token.behind line) before after step) :
    Follows last line (token :: before) after step := by
  cases h with
  | token next rest => exact .token next rest
  | fault rest hfault => exact .fault rest hfault
  | unclosed bracket hend => exact .unclosed bracket hend
  | last => exact .last

/-- The steps at the end bring no tokens. -/
theorem token?_closing : ∀ step ∈ closing line opened, step.token? = none := by
  intro step hstep
  rcases List.mem_append.1 hstep with hopen | hend
  · obtain ⟨bracket, -, rfl⟩ := List.mem_map.1 hopen
    rfl
  · obtain rfl := List.mem_singleton.1 hend
    rfl

theorem course_cons (token : Token) (rest : List Token) :
    course last opened line (token :: rest)
      = (Nesting.pass opened token).2.toList.map
          (fun error => .raises (.balance error) (token.behind line))
        ++ ⟨.ok token, token.behind line⟩
          :: course last (Nesting.pass opened token).1 (token.behind line) rest := rfl

/-- The tokens of a course are those that it is made of. -/
theorem tokens_course (last : LexError) (opened : List Bracket) (line : Nat)
    (tokens : List Token) : (course last opened line tokens).filterMap Step.token? = tokens := by
  induction tokens generalizing opened line with
  | nil =>
      unfold course
      split
      · exact List.filterMap_eq_nil_iff.2 token?_closing
      · rfl
  | cons token rest ih =>
      have hfaults : ((Nesting.pass opened token).2.toList.map fun error =>
          Step.raises (.balance error) (token.behind line)).filterMap Step.token? = [] := by
        cases (Nesting.pass opened token).2 <;> rfl
      rw [course_cons, List.filterMap_append, hfaults, List.nil_append]
      exact congrArg (token :: ·) (ih _ _)

/-- The steps at the end come behind all tokens. -/
theorem follows_of_closing {step : Step} (hstep : step ∈ closing line opened) :
    Follows .endOfInput line [] [] step := by
  rcases List.mem_append.1 hstep with hopen | hend
  · obtain ⟨bracket, -, rfl⟩ := List.mem_map.1 hopen
    exact .unclosed bracket rfl
  · obtain rfl := List.mem_singleton.1 hend
    exact .last

/-- Every step of a course comes behind the tokens before it. -/
theorem follows_of_course (hline : line ≤ maxLine) {front back : List Step} {step : Step}
    (h : course last opened line tokens = front ++ step :: back) :
    ∃ after, tokens = front.filterMap Step.token? ++ after
      ∧ Follows last line (front.filterMap Step.token?) after step := by
  induction tokens generalizing opened line front with
  | nil =>
      unfold course at h
      split at h
      next hend =>
        subst hend
        have hfront : front.filterMap Step.token? = [] := by
          refine List.filterMap_eq_nil_iff.2 fun other hother => ?_
          apply token?_closing other
          rw [h]
          exact List.mem_append_left _ hother
        have hstep : step ∈ closing line opened := by
          rw [h]
          exact List.mem_append_right _ List.mem_cons_self
        rw [hfront]
        exact ⟨[], rfl, follows_of_closing hstep⟩
      next hother =>
        obtain ⟨rfl, hstep⟩ := (List.append_eq_singleton_iff.1 h.symm).resolve_right (by simp)
        cases hstep
        exact ⟨[], rfl, .last⟩
  | cons token rest ih =>
      -- the token itself, or a step behind it
      have hbehind {front : List Step}
          (h : ⟨.ok token, token.behind line⟩
              :: course last (Nesting.pass opened token).1 (token.behind line) rest
            = front ++ step :: back) :
          ∃ after, token :: rest = front.filterMap Step.token? ++ after
            ∧ Follows last line (front.filterMap Step.token?) after step := by
        cases front with
        | nil =>
            obtain ⟨rfl, -⟩ := List.cons.inj h
            exact ⟨token :: rest, rfl, .token token rest⟩
        | cons first front =>
            obtain ⟨rfl, hrest⟩ := List.cons.inj h
            obtain ⟨after, htokens, hfollows⟩ := ih (Nat.min_le_right _ _) hrest
            exact ⟨after, congrArg (token :: ·) htokens, hfollows.cons⟩
      rw [course_cons] at h
      cases hfault : (Nesting.pass opened token).2 with
      | none =>
          rw [hfault] at h
          exact hbehind h
      | some error =>
          rw [hfault] at h
          have hsame := Token.behind_symbol (Nesting.symbol_of_fault hfault).1 hline
          cases front with
          | nil =>
              obtain ⟨rfl, -⟩ := List.cons.inj h
              refine ⟨token :: rest, rfl, ?_⟩
              rw [hsame]
              exact .fault rest hfault
          | cons first front =>
              obtain ⟨rfl, hrest⟩ := List.cons.inj h
              have hlater := hbehind hrest
              exact hlater

/-- Only the last step of a course can be one that a scan stops at, unless
the scan stops at faults in the nesting. -/
theorem course_goesOn (hstop : preferences.stopOnBalanceError = false) (last : LexError)
    (opened : List Bracket) (line : Nat) (tokens : List Token) :
    ∃ front, course last opened line tokens = front ++ [.raises last (reached line tokens)]
      ∧ ∀ step ∈ front, step.goesOn preferences = true := by
  have hbalance (error : BalanceError) (line : Nat) :
      (Step.raises (.balance error) line).goesOn preferences = true :=
    goesOn_error_iff.2 ⟨nofun, isFinal_balance hstop error⟩
  induction tokens generalizing opened line with
  | nil =>
      unfold course
      split
      next hend =>
        subst hend
        refine ⟨_, rfl, fun step hstep => ?_⟩
        obtain ⟨bracket, -, rfl⟩ := List.mem_map.1 hstep
        exact hbalance _ _
      next hother => exact ⟨[], rfl, nofun⟩
  | cons token rest ih =>
      obtain ⟨front, hrest, hgo⟩ := ih (Nesting.pass opened token).1 (token.behind line)
      rw [course_cons, hrest, ← List.cons_append, ← List.append_assoc]
      refine ⟨_, rfl, fun step hstep => ?_⟩
      rcases List.mem_append.1 hstep with hfault | hstep
      · obtain ⟨error, -, rfl⟩ := List.mem_map.1 hfault
        exact hbalance _ _
      · rcases List.mem_cons.1 hstep with rfl | hstep
        · rfl
        · exact hgo step hstep

end Follows

-- =========================================================== what is scanned

section Source

variable {source : CharSource}

/-- A scan that goes on at faults in the nesting makes the whole course. -/
theorem steps_lenient (hstop : preferences.stopOnBalanceError = false) (source : CharSource) :
    steps preferences (checker source) = courseOf (Stream.ofSource source).delivered := by
  obtain ⟨front, hcourse, hgo⟩ := course_goesOn hstop (Stream.ofSource source).delivered.last []
    1 (Stream.ofSource source).delivered.tokens
  rw [steps_checker, courseOf, hcourse, through_concat hgo]

/-- Every step of a scan comes behind some of the tokens of the source. -/
theorem follows_of_steps {front back : List Step} {step : Step}
    (h : steps preferences (checker source) = front ++ step :: back) :
    ∃ after, (Stream.ofSource source).delivered.tokens = front.filterMap Step.token? ++ after
      ∧ Follows (Stream.ofSource source).delivered.last 1 (front.filterMap Step.token?) after
        step := by
  obtain ⟨later, hcourse⟩ := through_isPrefix (Step.goesOn preferences)
    (courseOf (Stream.ofSource source).delivered)
  rw [← steps_checker, h, List.append_assoc, List.cons_append] at hcourse
  exact follows_of_course (by decide) hcourse.symm

theorem exists_follows {answer : Answer Token}
    (h : answer ∈ answers preferences (checker source)) :
    ∃ before after, (Stream.ofSource source).delivered.tokens = before ++ after
      ∧ Follows (Stream.ofSource source).delivered.last 1 before after (.ofAnswer answer) := by
  have hstep : Step.ofAnswer answer ∈ steps preferences (checker source) := List.mem_map_of_mem h
  obtain ⟨front, back, hsplit⟩ := List.append_of_mem hstep
  exact ⟨_, follows_of_steps hsplit⟩

/-- A token that is scanned is one of the source, and its line is the one
behind it less its own line ends. -/
theorem scanned_follows {scanned : ScannedToken}
    (h : scanned ∈ Scan.scanned preferences (checker source)) :
    ∃ before after,
      (Stream.ofSource source).delivered.tokens = before ++ scanned.token :: after
        ∧ scanned.line = startLine scanned.token (reached 1 (before ++ [scanned.token])) := by
  obtain ⟨answer, hanswer, hscanned⟩ := List.mem_filterMap.1 h
  obtain ⟨before, after, htokens, hfollows⟩ := exists_follows hanswer
  rw [Step.scanned?_eq] at hscanned
  obtain ⟨token, htoken, rfl⟩ := Option.map_eq_some_iff.1 hscanned
  generalize Step.ofAnswer answer = step at htoken hfollows ⊢
  cases hfollows with
  | token next rest =>
      cases htoken
      exact ⟨before, rest, htokens, rfl⟩
  | fault | unclosed | last => cases htoken

/-- A fault that is met comes behind some of the tokens of the source. -/
theorem fault_follows {fault : Fault} (h : fault ∈ faults preferences (checker source)) :
    ∃ before after, (Stream.ofSource source).delivered.tokens = before ++ after
      ∧ Follows (Stream.ofSource source).delivered.last 1 before after
        (.raises fault.error fault.line) := by
  obtain ⟨answer, hanswer, hfault⟩ := List.mem_filterMap.1 h
  obtain ⟨before, after, htokens, hfollows⟩ := exists_follows hanswer
  obtain ⟨hraised, -, hline⟩ := fault?_eq_some_iff.1 hfault
  have hsame : Step.ofAnswer answer = .raises fault.error fault.line := by
    rw [Step.ofAnswer, hraised, hline]
    rfl
  exact ⟨before, after, htokens, hsame ▸ hfollows⟩

/-- The tokens that are scanned are those of the steps. -/
theorem tokens_scanned (preferences : ScanPreferences) (s : Stream) :
    (scanned preferences s).map (·.token) = (steps preferences s).filterMap Step.token? := by
  rw [scanned, steps, List.map_filterMap, List.filterMap_map]
  refine List.filterMap_congr fun answer _ => ?_
  rw [Step.scanned?_eq, Option.map_map]
  exact Option.map_id' ..

/-- The errors that are met are those of the steps. -/
theorem errors_faults (preferences : ScanPreferences) (s : Stream) :
    (faults preferences s).map (·.error) = (steps preferences s).filterMap Step.error? := by
  rw [faults, steps, List.map_filterMap, List.filterMap_map]
  refine List.filterMap_congr fun answer _ => ?_
  rw [Step.fault?_eq, Option.map_map]
  exact Option.map_id' ..

/-- They are the first tokens of the source, and the line that a scan has
reached is the one behind them. -/
theorem scanned_isPrefix (preferences : ScanPreferences) (source : CharSource) :
    (scanned preferences (checker source)).map (·.token)
        <+: (Stream.ofSource source).delivered.tokens
      ∧ (left preferences (checker source)).line
        = reached 1 ((scanned preferences (checker source)).map (·.token)) := by
  rw [tokens_scanned]
  constructor
  · have hpart := (through_isPrefix (Step.goesOn preferences)
      (courseOf (Stream.ofSource source).delivered)).filterMap Step.token?
    rw [← steps_checker, courseOf, tokens_course] at hpart
    exact hpart
  · obtain ⟨init, final, hanswers⟩ :=
      (List.eq_nil_or_concat' _).resolve_left (answers_ne_nil preferences (checker source))
    have hsteps : steps preferences (checker source)
        = init.map Step.ofAnswer ++ [Step.ofAnswer final] := by
      rw [steps, hanswers, List.map_append, List.map_singleton]
    obtain ⟨after, -, hfollows⟩ := follows_of_steps hsteps
    have hleft : left preferences (checker source) = final.stream := by
      rw [left, hanswers, List.getLast?_concat]
      rfl
    have htoken : [Step.ofAnswer final].filterMap Step.token?
        = (Step.ofAnswer final).token?.toList := by
      rw [List.filterMap_cons]
      cases (Step.ofAnswer final).token? <;> rfl
    rw [hleft, hsteps, List.filterMap_append, htoken]
    exact hfollows.line_eq

end Source

end Scan

end LayeredLexer
