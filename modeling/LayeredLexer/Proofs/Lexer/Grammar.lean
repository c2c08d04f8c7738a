/-
The lexical grammar, and the automaton's agreement with it. The grammar
says by position which characters make the first lexeme of a text: the
first line end ends a line comment, the first `*/` at place two or later
ends a block comment, the first delimiter behind an even number of
backslashes ends a quote, and runs are the longest ones. It knows no
phases and reads nothing twice.

# Why the two agree

A phase of the automaton is a memory of what stands right before the
characters still to be read: a star, a backslash, or neither. So each of
the two phases that look back is compared with the grammar on the list
that has this one character put in front again (`lexeme_block`,
`lexeme_quote`), and the induction is on the characters, for both
memories at once. A position then moves by one with each character that
is read (`isLeast_tail`).
-/
import LayeredLexer.Proofs.Lexer.Span
import Mathlib.Algebra.Group.Nat.Even
import Mathlib.Data.List.TakeWhile
import Mathlib.Data.Nat.Find
import Mathlib.Order.Bounds.Basic

namespace LayeredLexer

/-- What stands at the front of a text: a token, given by its kind and
its characters, or a construct that is never closed. -/
inductive Lexeme where
  | token (kind : Kind) (text : List Char)
  | openComment
  | openQuote
deriving DecidableEq, Repr

-- =========================================================== the grammar

/-- `run` is the longest run of characters in `p` that `cs` begins with. -/
structure LongestRun (p : Char → Bool) (cs run : List Char) : Prop where
  starts : run <+: cs
  holds : ∀ c ∈ run, p c = true
  longest : ∀ other, other <+: cs → (∀ c ∈ other, p c = true) → other.length ≤ run.length

/-- The number of consecutive backslashes right before a place. -/
def backslashesBefore (cs : List Char) : Nat → Nat
  | 0 => 0
  | i + 1 => if cs[i]? = some '\\' then backslashesBefore cs i + 1 else 0

/-- A line ends at place `i`. -/
def LineEndAt (cs : List Char) (i : Nat) : Prop := cs[i]? = some '\n'

/-- A comment is closed by a mark that begins at place `i`. -/
def MarkAt (cs : List Char) (i : Nat) : Prop := cs[i]? = some '*' ∧ cs[i + 1]? = some '/'

/-- A delimiter stands at place `i` and is not escaped. -/
def DelimiterAt (d : Char) (cs : List Char) (i : Nat) : Prop :=
  cs[i]? = some d ∧ Even (backslashesBefore cs i)

/-- The lexeme that a text begins with. -/
inductive Reads (rest : List Char) : Lexeme → Prop
  /-- A line comment runs through the first line end. -/
  | line {n : Nat} (mark : ['/', '/'] <+: rest) (first : IsLeast {i | LineEndAt rest i} n) :
      Reads rest (.token .comment (rest.take (n + 1)))
  /-- Without a line end it runs to the end of the text. -/
  | lastLine (mark : ['/', '/'] <+: rest) (never : ∀ i, ¬ LineEndAt rest i) :
      Reads rest (.token .comment rest)
  /-- A block comment runs through the first closing mark behind its own. -/
  | block {n : Nat} (mark : ['/', '*'] <+: rest)
      (first : IsLeast {i | 2 ≤ i ∧ MarkAt rest i} n) :
      Reads rest (.token .comment (rest.take (n + 2)))
  | openBlock (mark : ['/', '*'] <+: rest) (never : ∀ i, 2 ≤ i → ¬ MarkAt rest i) :
      Reads rest .openComment
  /-- A quote runs through the first later delimiter that is not escaped. -/
  | quote {d : Char} {n : Nat} (mark : rest.head? = some d) (isMark : isQuote d = true)
      (first : IsLeast {i | 1 ≤ i ∧ DelimiterAt d rest i} n) :
      Reads rest (.token .quote (rest.take (n + 1)))
  | openQuote {d : Char} (mark : rest.head? = some d) (isMark : isQuote d = true)
      (never : ∀ i, 1 ≤ i → ¬ DelimiterAt d rest i) :
      Reads rest .openQuote
  /-- A word is an identifier start and the longest run behind it. -/
  | word {c : Char} {tail run : List Char} (front : rest = c :: tail)
      (start : isIdentifierStart c = true) (parts : LongestRun isIdentifierPart tail run) :
      Reads rest (.token .word (c :: run))
  /-- A space is the longest run of blanks. -/
  | space {c : Char} {tail run : List Char} (front : rest = c :: tail)
      (noStart : isIdentifierStart c = false) (blank : isBlank c = true)
      (blanks : LongestRun isBlank rest run) :
      Reads rest (.token .space run)
  /-- Every other character is a symbol, a slash that opens no comment too. -/
  | symbol {c : Char} {tail : List Char} (front : rest = c :: tail)
      (noLine : ¬ ['/', '/'] <+: rest) (noBlock : ¬ ['/', '*'] <+: rest)
      (noQuote : isQuote c = false) (noStart : isIdentifierStart c = false)
      (noBlank : isBlank c = false) :
      Reads rest (.token .symbol [c])

-- ============================================================ least places

section LeastPlaces

variable {P : Nat → Prop} {n : Nat}

/-- A property that holds at the front holds there first. -/
theorem isLeast_front (h : IsLeast {i | P i} n) (h0 : P 0) : n = 0 :=
  Nat.le_zero.mp (h.2 h0)

/-- A property that fails at the front holds first where it does in the
tail, one place further. -/
theorem isLeast_tail (h : IsLeast {i | P i} n) (h0 : ¬ P 0) :
    ∃ m, n = m + 1 ∧ IsLeast {i | P (i + 1)} m := by
  cases n with
  | zero => exact absurd h.1 h0
  | succ m =>
      refine ⟨m, rfl, h.1, ?_⟩
      intro i hi
      exact Nat.le_of_succ_le_succ (h.2 hi)

/-- A property of places holds first somewhere, or nowhere. -/
theorem isLeast_or_none (P : Nat → Prop) : (∃ n, IsLeast {i | P i} n) ∨ ∀ i, ¬ P i := by
  classical
  by_cases h : ∃ i, P i
  · exact Or.inl ⟨Nat.find h, Nat.find_spec h, fun i hi => Nat.find_min' h hi⟩
  · exact Or.inr fun i hi => h ⟨i, hi⟩

end LeastPlaces

-- ================================================================= runs

theorem longestRun_takeWhile (p : Char → Bool) (cs : List Char) :
    LongestRun p cs (cs.takeWhile p) := by
  refine ⟨List.takeWhile_prefix p, fun c hc => List.mem_takeWhile_imp hc, ?_⟩
  intro other hother hp
  obtain ⟨suffix, rfl⟩ := hother
  rw [List.takeWhile_append_of_pos hp, List.length_append]
  omega

/-- There is one longest run. -/
theorem LongestRun.eq_takeWhile {p : Char → Bool} {cs run : List Char}
    (h : LongestRun p cs run) : run = cs.takeWhile p := by
  have ht := longestRun_takeWhile p cs
  have hle := h.longest _ ht.starts ht.holds
  have hge := ht.longest _ h.starts h.holds
  exact (List.prefix_of_prefix_length_le h.starts ht.starts hge).eq_of_length
    (Nat.le_antisymm hge hle)

-- ===================================================== spans as lexemes

namespace Lexeme

/-- The lexeme with one more character in front of its text. -/
def cons (c : Char) : Lexeme → Lexeme
  | token kind text => token kind (c :: text)
  | openComment => openComment
  | openQuote => openQuote

end Lexeme

namespace Phase

/-- What a text ends in that ends in this phase, if that is no token. -/
def opened : Phase → Lexeme
  | quoted _ | escaped _ => .openQuote
  | _ => .openComment

/-- The star right before the next character, where the phase depends on
it. -/
def memory : Phase → List Char
  | blockComment true => ['*']
  | _ => []

end Phase

/-- The lexeme of a span at the end of a text. -/
def Span.lexeme : Span → Lexeme
  | .whole kind taken _ => .token kind taken
  | .cut phase taken =>
      match phase.ending with
      | some kind => .token kind taken
      | none => phase.opened

@[simp] theorem Span.lexeme_cons (c : Char) (s : Span) :
    (s.cons c).lexeme = s.lexeme.cons c := by
  cases s with
  | whole kind taken left => rfl
  | cut phase taken => cases phase <;> rfl

namespace Phase

/-- A phase that goes on exactly on the characters of a class reads a run
of them. -/
theorem lexeme_run {phase : Phase} {kind : Kind} {p : Char → Bool}
    (hgo : ∀ c, p c = true → phase.move c = .extend phase)
    (hstop : ∀ c, p c = false → phase.move c = .stop kind)
    (hend : phase.ending = some kind) (cs : List Char) :
    (phase.span cs).lexeme = .token kind (cs.takeWhile p) := by
  induction cs with
  | nil => simp [span_nil, Span.lexeme, hend]
  | cons c rest ih =>
      cases hc : p c with
      | true =>
          rw [span_extend (hgo c hc), Span.lexeme_cons, ih, List.takeWhile_cons, if_pos hc]
          rfl
      | false =>
          rw [span_stop (hstop c hc), List.takeWhile_cons, hc]
          rfl

theorem lexeme_word (cs : List Char) :
    (word.span cs).lexeme = .token .word (cs.takeWhile isIdentifierPart) :=
  lexeme_run (fun c hc => by simp [move, hc]) (fun c hc => by simp [move, hc]) rfl cs

theorem lexeme_space (cs : List Char) :
    (space.span cs).lexeme = .token .space (cs.takeWhile isBlank) :=
  lexeme_run (fun c hc => by simp [move, hc]) (fun c hc => by simp [move, hc]) rfl cs

-- ========================================================= line comments

theorem lexeme_line {cs : List Char} {n : Nat} (h : IsLeast {i | LineEndAt cs i} n) :
    (lineComment.span cs).lexeme = .token .comment (cs.take (n + 1)) := by
  induction cs generalizing n with
  | nil => simp [LineEndAt, IsLeast] at h
  | cons c rest ih =>
      by_cases hc : c = '\n'
      · have hn : n = 0 := isLeast_front h (by simp [LineEndAt, hc])
        rw [span_close (show lineComment.move c = .close .comment by simp [move, hc]), hn]
        rfl
      · obtain ⟨m, rfl, hm⟩ := isLeast_tail h (by simp [LineEndAt, hc])
        rw [span_extend (show lineComment.move c = .extend lineComment by simp [move, hc]),
          Span.lexeme_cons, ih hm]
        rfl

theorem lexeme_lastLine {cs : List Char} (h : ∀ i, ¬ LineEndAt cs i) :
    (lineComment.span cs).lexeme = .token .comment cs := by
  induction cs with
  | nil => rfl
  | cons c rest ih =>
      have hc : c ≠ '\n' := fun hc => h 0 (by simp [LineEndAt, hc])
      rw [span_extend (show lineComment.move c = .extend lineComment by simp [move, hc]),
        Span.lexeme_cons, ih fun i => h (i + 1)]
      rfl

-- ======================================================== block comments

@[simp] theorem memory_block (c : Char) :
    (blockComment (c == '*')).memory = if c = '*' then ['*'] else [] := by
  by_cases hc : c = '*' <;> simp [memory, hc]

/-- A block comment ends behind the first mark of the characters with the
star that the phase remembers. -/
theorem lexeme_block {star : Bool} {cs : List Char} {n : Nat}
    (h : IsLeast {i | MarkAt ((blockComment star).memory ++ cs) i} n) :
    ((blockComment star).span cs).lexeme
      = .token .comment (cs.take (n + 2 - (blockComment star).memory.length)) := by
  induction cs generalizing star n with
  | nil => cases star <;> simp [MarkAt, memory, IsLeast] at h
  | cons c rest ih =>
      by_cases hclose : star = true ∧ c = '/'
      · obtain ⟨rfl, rfl⟩ := hclose
        have hn : n = 0 := isLeast_front h (by simp [MarkAt, memory])
        rw [span_close (show (blockComment true).move '/' = .close .comment by rfl), hn]
        rfl
      · have hmove : (blockComment star).move c = .extend (blockComment (c == '*')) := by
          simpa [move] using hclose
        rw [span_extend hmove, Span.lexeme_cons]
        -- the mark does not begin at a remembered star
        obtain ⟨k, hk, hm⟩ : ∃ k, n + 2 - (blockComment star).memory.length = k + 2
            ∧ IsLeast {i | MarkAt (c :: rest) i} k := by
          cases star with
          | false => exact ⟨n, rfl, h⟩
          | true =>
              obtain ⟨m, rfl, hm⟩ := isLeast_tail h (by simpa [MarkAt, memory] using hclose)
              exact ⟨m, rfl, hm⟩
        rw [hk]
        by_cases hc : c = '*'
        · subst hc
          show Lexeme.cons '*' ((blockComment true).span rest).lexeme = _
          rw [@ih true k hm]
          rfl
        · obtain ⟨m, rfl, hm'⟩ := isLeast_tail hm (by simp [MarkAt, hc])
          have hrest : IsLeast {i | MarkAt rest i} m := hm'
          rw [@ih (c == '*') m (by simpa [hc] using hrest)]
          simp [hc, Lexeme.cons]

/-- Without a mark it stays open. -/
theorem lexeme_openBlock {star : Bool} {cs : List Char}
    (h : ∀ i, ¬ MarkAt ((blockComment star).memory ++ cs) i) :
    ((blockComment star).span cs).lexeme = .openComment := by
  induction cs generalizing star with
  | nil => rfl
  | cons c rest ih =>
      have hclose : ¬ (star = true ∧ c = '/') := by
        rintro ⟨rfl, rfl⟩
        exact h 0 (by simp [MarkAt, memory])
      have hmove : (blockComment star).move c = .extend (blockComment (c == '*')) := by
        simpa [move] using hclose
      have htail (i : Nat) : ¬ MarkAt (c :: rest) i := by
        cases star with
        | false => exact h i
        | true => exact h (i + 1)
      rw [span_extend hmove, Span.lexeme_cons, ih ?_]
      · rfl
      · intro i
        by_cases hc : c = '*'
        · subst hc
          exact htail i
        · have hrest : ¬ MarkAt rest i := htail (i + 1)
          simpa [hc] using hrest

-- ================================================================ quotes

/-- A character that is no backslash ends every count behind it. -/
theorem backslashesBefore_cons {c : Char} (hc : c ≠ '\\') (cs : List Char) (i : Nat) :
    backslashesBefore (c :: cs) (i + 1) = backslashesBefore cs i := by
  induction i with
  | zero => simp [backslashesBefore, hc]
  | succ i ih =>
      rw [backslashesBefore, List.getElem?_cons_succ, ih]
      rfl

/-- A backslash and the character behind it do not change the parity. -/
theorem even_backslashesBefore_escape (c : Char) (cs : List Char) (i : Nat) :
    Even (backslashesBefore ('\\' :: c :: cs) (i + 2)) ↔ Even (backslashesBefore cs i) := by
  by_cases hc : c = '\\'
  · subst hc
    induction i with
    | zero => exact iff_of_true ⟨1, rfl⟩ ⟨0, rfl⟩
    | succ i ih =>
        rw [backslashesBefore, backslashesBefore.eq_2 cs]
        simp only [List.getElem?_cons_succ]
        split
        · rw [Nat.even_add_one, Nat.even_add_one, ih]
        · rfl
  · have hskip : backslashesBefore ('\\' :: c :: cs) (i + 2) = backslashesBefore cs i := by
      induction i with
      | zero => simp [backslashesBefore, hc]
      | succ i ih =>
          rw [backslashesBefore, List.getElem?_cons_succ, List.getElem?_cons_succ, ih]
          rfl
    rw [hskip]

/-- No delimiter stands right behind a pending backslash or on it, so the
first one stands two places further. -/
theorem isLeast_escape {d c : Char} (hd : d ≠ '\\') {rest : List Char} {n : Nat}
    (h : IsLeast {i | DelimiterAt d ('\\' :: c :: rest) i} n) :
    ∃ m, n = m + 2 ∧ IsLeast {i | DelimiterAt d rest i} m := by
  obtain ⟨m, rfl, hm⟩ := isLeast_tail h (by simp [DelimiterAt, hd.symm])
  obtain ⟨k, rfl, hk⟩ := isLeast_tail hm (by simp [DelimiterAt, backslashesBefore])
  refine ⟨k, rfl, ?_⟩
  simpa only [DelimiterAt, List.getElem?_cons_succ, Nat.add_assoc, Nat.reduceAdd,
    even_backslashesBefore_escape] using hk

/-- A quote ends behind the first delimiter of its characters, with a
pending backslash put in front of them again. -/
theorem lexeme_quote {d : Char} (hd : d ≠ '\\') {cs : List Char} {n : Nat} :
    (IsLeast {i | DelimiterAt d cs i} n →
        ((quoted d).span cs).lexeme = .token .quote (cs.take (n + 1)))
      ∧ (IsLeast {i | DelimiterAt d ('\\' :: cs) i} n →
        ((escaped d).span cs).lexeme = .token .quote (cs.take n)) := by
  induction cs generalizing n with
  | nil =>
      constructor
      · intro h
        simp [DelimiterAt, IsLeast] at h
      · intro h
        obtain ⟨m, rfl, hm⟩ := isLeast_tail h (by simp [DelimiterAt, hd.symm])
        simp [DelimiterAt, IsLeast] at hm
  | cons c rest ih =>
      constructor
      · intro h
        by_cases hc : c = d
        · have hn : n = 0 := isLeast_front h ⟨by simp [hc], ⟨0, rfl⟩⟩
          rw [span_close (show (quoted d).move c = .close .quote by simp [move, hc]), hn]
          rfl
        by_cases hslash : c = '\\'
        · subst hslash
          rw [span_extend (show (quoted d).move '\\' = .extend (escaped d) by simp [move, hc]),
            Span.lexeme_cons, ih.2 h]
          rfl
        · obtain ⟨m, rfl, hm⟩ := isLeast_tail h (by simp [DelimiterAt, hc])
          have hrest : IsLeast {i | DelimiterAt d rest i} m := by
            simpa only [DelimiterAt, List.getElem?_cons_succ, backslashesBefore_cons hslash]
              using hm
          rw [span_extend (show (quoted d).move c = .extend (quoted d) by
              simp [move, hc, hslash]), Span.lexeme_cons, ih.1 hrest]
          rfl
      · intro h
        obtain ⟨m, rfl, hm⟩ := isLeast_escape hd h
        rw [span_extend (show (escaped d).move c = .extend (quoted d) by rfl),
          Span.lexeme_cons, ih.1 hm]
        rfl

/-- Without such a delimiter it stays open. -/
theorem lexeme_openQuote {d : Char} {cs : List Char} :
    ((∀ i, ¬ DelimiterAt d cs i) → ((quoted d).span cs).lexeme = .openQuote)
      ∧ ((∀ i, ¬ DelimiterAt d ('\\' :: cs) i) →
        ((escaped d).span cs).lexeme = .openQuote) := by
  induction cs with
  | nil => exact ⟨fun _ => rfl, fun _ => rfl⟩
  | cons c rest ih =>
      constructor
      · intro h
        have hc : c ≠ d := fun hc => h 0 ⟨by simp [hc], ⟨0, rfl⟩⟩
        by_cases hslash : c = '\\'
        · subst hslash
          rw [span_extend (show (quoted d).move '\\' = .extend (escaped d) by simp [move, hc]),
            Span.lexeme_cons, ih.2 h]
          rfl
        · rw [span_extend (show (quoted d).move c = .extend (quoted d) by
              simp [move, hc, hslash]), Span.lexeme_cons, ih.1 ?_]
          · rfl
          · intro i
            have := h (i + 1)
            simpa only [DelimiterAt, List.getElem?_cons_succ, backslashesBefore_cons hslash]
              using this
      · intro h
        rw [span_extend (show (escaped d).move c = .extend (quoted d) by rfl),
          Span.lexeme_cons, ih.1 ?_]
        · rfl
        · intro i
          have := h (i + 2)
          simpa only [DelimiterAt, List.getElem?_cons_succ, even_backslashesBefore_escape]
            using this

-- ======================================================= the first move

theorem isQuote_iff {c : Char} : isQuote c = true ↔ c = '"' ∨ c = '\'' := by
  simp [isQuote]

theorem start_quote {c : Char} (h : isQuote c = true) : start c = .extend (quoted c) := by
  rcases isQuote_iff.1 h with rfl | rfl <;> rfl

/-- No identifier starts with a slash or a quote, by the tables. -/
theorem start_word {c : Char} (h : isIdentifierStart c = true) : start c = .extend word := by
  have hslash : c ≠ '/' := by rintro rfl; revert h; decide
  have hquote : isQuote c = false := by
    rw [Bool.eq_false_iff]
    intro hq
    rcases isQuote_iff.1 hq with rfl | rfl <;> revert h <;> decide
  simp [start, hslash, hquote, h]

/-- Nor is one of them white space. -/
theorem start_space {c : Char} (hword : isIdentifierStart c = false) (h : isBlank c = true) :
    start c = .extend space := by
  have hslash : c ≠ '/' := by rintro rfl; revert h; decide
  have hquote : isQuote c = false := by
    rw [Bool.eq_false_iff]
    intro hq
    rcases isQuote_iff.1 hq with rfl | rfl <;> revert h <;> decide
  simp [start, hslash, hquote, hword, h]

theorem span_slash (tail : List Char) :
    fresh.span ('/' :: tail) = (slash.span tail).cons '/' :=
  span_extend (show fresh.move '/' = .extend slash by rfl) tail

theorem span_line (tail : List Char) :
    fresh.span ('/' :: '/' :: tail) = ((lineComment.span tail).cons '/').cons '/' := by
  rw [span_slash, span_extend (show slash.move '/' = .extend lineComment by rfl)]

theorem span_block (tail : List Char) :
    fresh.span ('/' :: '*' :: tail) = (((blockComment false).span tail).cons '*').cons '/' := by
  rw [span_slash, span_extend (show slash.move '*' = .extend (blockComment false) by rfl)]

/-- A slash that opens no comment is a symbol. -/
theorem lexeme_slash {tail : List Char} (hline : ¬ ['/', '/'] <+: '/' :: tail)
    (hblock : ¬ ['/', '*'] <+: '/' :: tail) :
    (fresh.span ('/' :: tail)).lexeme = .token .symbol ['/'] := by
  rw [span_slash, Span.lexeme_cons]
  cases tail with
  | nil => rfl
  | cons c rest =>
      have hslash : c ≠ '/' := by rintro rfl; exact hline ⟨rest, rfl⟩
      have hstar : c ≠ '*' := by rintro rfl; exact hblock ⟨rest, rfl⟩
      rw [span_stop (show slash.move c = .stop .symbol by simp [move, hslash, hstar])]
      rfl

end Phase

-- ========================================================== the agreement

open Phase in
/-- What the grammar reads is what the automaton takes. -/
theorem Reads.lexeme_eq {rest : List Char} {x : Lexeme} (h : Reads rest x) :
    (Phase.fresh.span rest).lexeme = x := by
  cases h with
  | line mark first =>
      obtain ⟨tail, rfl⟩ := mark
      obtain ⟨m, rfl, hm⟩ := isLeast_tail first (by simp [LineEndAt])
      obtain ⟨k, rfl, hk⟩ := isLeast_tail hm (by simp [LineEndAt])
      have htail : IsLeast {i | LineEndAt tail i} k := hk
      show (fresh.span ('/' :: '/' :: tail)).lexeme = _
      rw [span_line, Span.lexeme_cons, Span.lexeme_cons, lexeme_line htail]
      rfl
  | lastLine mark never =>
      obtain ⟨tail, rfl⟩ := mark
      have htail (i : Nat) : ¬ LineEndAt tail i := never (i + 2)
      show (fresh.span ('/' :: '/' :: tail)).lexeme = _
      rw [span_line, Span.lexeme_cons, Span.lexeme_cons, lexeme_lastLine htail]
      rfl
  | block mark first =>
      obtain ⟨tail, rfl⟩ := mark
      obtain ⟨m, rfl, hm⟩ := isLeast_tail first (by simp)
      obtain ⟨k, rfl, hk⟩ := isLeast_tail hm (by simp)
      have htail : IsLeast {i | MarkAt ((blockComment false).memory ++ tail) i} k :=
        ⟨hk.1.2, fun i hi => hk.2 ⟨by omega, hi⟩⟩
      show (fresh.span ('/' :: '*' :: tail)).lexeme = _
      rw [span_block, Span.lexeme_cons, Span.lexeme_cons, lexeme_block htail]
      rfl
  | openBlock mark never =>
      obtain ⟨tail, rfl⟩ := mark
      have htail (i : Nat) : ¬ MarkAt ((blockComment false).memory ++ tail) i :=
        never (i + 2) (by omega)
      show (fresh.span ('/' :: '*' :: tail)).lexeme = _
      rw [span_block, Span.lexeme_cons, Span.lexeme_cons, lexeme_openBlock htail]
      rfl
  | @quote d n mark isMark first =>
      obtain ⟨tail, rfl⟩ := List.head?_eq_some_iff.1 mark
      have hd : d ≠ '\\' := by rintro rfl; revert isMark; decide
      obtain ⟨m, rfl, hm⟩ := isLeast_tail first (by simp)
      have htail : IsLeast {i | DelimiterAt d tail i} m := by
        simpa [DelimiterAt, backslashesBefore_cons hd] using hm
      rw [span_extend (show fresh.move d = _ from start_quote isMark), Span.lexeme_cons,
        (lexeme_quote hd).1 htail]
      rfl
  | @openQuote d mark isMark never =>
      obtain ⟨tail, rfl⟩ := List.head?_eq_some_iff.1 mark
      have hd : d ≠ '\\' := by rintro rfl; revert isMark; decide
      have htail (i : Nat) : ¬ DelimiterAt d tail i := by
        simpa [DelimiterAt, backslashesBefore_cons hd] using never (i + 1) (by omega)
      rw [span_extend (show fresh.move d = _ from start_quote isMark), Span.lexeme_cons,
        lexeme_openQuote.1 htail]
      rfl
  | @word c tail run front start parts =>
      subst front
      rw [span_extend (show fresh.move c = _ from start_word start), Span.lexeme_cons,
        lexeme_word, parts.eq_takeWhile]
      rfl
  | @space c tail run front noStart blank blanks =>
      subst front
      rw [span_extend (show fresh.move c = _ from start_space noStart blank), Span.lexeme_cons,
        lexeme_space, blanks.eq_takeWhile, List.takeWhile_cons, if_pos blank]
      rfl
  | @symbol c tail front noLine noBlock noQuote noStart noBlank =>
      subst front
      by_cases hslash : c = '/'
      · subst hslash
        exact lexeme_slash noLine noBlock
      · have hmove : fresh.move c = .close .symbol := by
          simp [move, start, hslash, noQuote, noStart, noBlank]
        rw [span_close hmove]
        rfl

/-- The grammar reads something at the front of every text but the empty
one. -/
theorem exists_reads {rest : List Char} (h : rest ≠ []) : ∃ x, Reads rest x := by
  obtain ⟨c, tail, rfl⟩ := List.exists_cons_of_ne_nil h
  by_cases hline : ['/', '/'] <+: c :: tail
  · rcases isLeast_or_none (LineEndAt (c :: tail)) with ⟨n, hn⟩ | hnever
    · exact ⟨_, .line hline hn⟩
    · exact ⟨_, .lastLine hline hnever⟩
  by_cases hblock : ['/', '*'] <+: c :: tail
  · rcases isLeast_or_none (fun i => 2 ≤ i ∧ MarkAt (c :: tail) i) with ⟨n, hn⟩ | hnever
    · exact ⟨_, .block hblock hn⟩
    · exact ⟨_, .openBlock hblock fun i hi hmark => hnever i ⟨hi, hmark⟩⟩
  cases hquote : isQuote c with
  | true =>
      rcases isLeast_or_none (fun i => 1 ≤ i ∧ DelimiterAt c (c :: tail) i) with ⟨n, hn⟩ | hnever
      · exact ⟨_, .quote rfl hquote hn⟩
      · exact ⟨_, .openQuote rfl hquote fun i hi hmark => hnever i ⟨hi, hmark⟩⟩
  | false =>
      cases hstart : isIdentifierStart c with
      | true => exact ⟨_, .word rfl hstart (longestRun_takeWhile _ _)⟩
      | false =>
          cases hblank : isBlank c with
          | true => exact ⟨_, .space rfl hstart hblank (longestRun_takeWhile _ _)⟩
          | false => exact ⟨_, .symbol rfl hline hblock hquote hstart hblank⟩

/-- The grammar and the automaton agree on every text that is not empty,
so the grammar reads exactly one lexeme there. -/
theorem reads_iff {rest : List Char} (h : rest ≠ []) (x : Lexeme) :
    Reads rest x ↔ (Phase.fresh.span rest).lexeme = x := by
  constructor
  · exact Reads.lexeme_eq
  · intro hx
    obtain ⟨y, hy⟩ := exists_reads h
    rw [← hx, hy.lexeme_eq]
    exact hy

end LayeredLexer
