/-
One run of the lexical automaton, seen on the characters that are ready.
A span is what a run makes of a list of characters: a whole lexeme and
what is left behind it, or all of the characters and the phase they end
in. It is read off the list by structural recursion, so nothing here
speaks of sources, sizes or failures.

# The bridge

`run_ready` ties the two together for any source. If the span of the
ready characters is whole, the run never looks behind them: the supply
is as it was. If it is cut, the run goes on from the phase reached, with
nothing ready any more. All that is proved of lexing a text is proved of
spans and carried over by this one lemma.
-/
import LayeredLexer.Lexer.Lexeme
import Mathlib.Data.List.Basic

namespace LayeredLexer

/-- What the automaton makes of a list of characters. -/
inductive Span where
  /-- A lexeme, and the characters behind it. -/
  | whole (kind : Kind) (taken left : List Char)
  /-- The characters end in this phase. -/
  | cut (phase : Phase) (taken : List Char)
deriving DecidableEq, Repr

namespace Span

/-- The characters of the lexeme. -/
def taken : Span → List Char
  | whole _ taken _ | cut _ taken => taken

/-- The characters behind the lexeme. -/
def left : Span → List Char
  | whole _ _ left => left
  | cut _ _ => []

/-- The span with one more character in front of its lexeme. -/
def cons (c : Char) : Span → Span
  | whole kind taken left => whole kind (c :: taken) left
  | cut phase taken => cut phase (c :: taken)

@[simp] theorem taken_cons (c : Char) (s : Span) :
    (s.cons c).taken = c :: s.taken := by
  cases s <;> rfl

@[simp] theorem left_cons (c : Char) (s : Span) : (s.cons c).left = s.left := by
  cases s <;> rfl

end Span

namespace Phase

/-- The span from a phase over a list of characters. -/
def span (phase : Phase) : List Char → Span
  | [] => .cut phase []
  | c :: rest =>
    match phase.move c with
    | .extend next => (next.span rest).cons c
    | .close kind => .whole kind [c] rest
    | .stop kind => .whole kind [] (c :: rest)

theorem span_nil (phase : Phase) : phase.span [] = .cut phase [] := rfl

theorem span_extend {phase next : Phase} {c : Char} (h : phase.move c = .extend next)
    (rest : List Char) : phase.span (c :: rest) = (next.span rest).cons c := by
  simp only [span, h]

theorem span_close {phase : Phase} {c : Char} {kind : Kind} (h : phase.move c = .close kind)
    (rest : List Char) : phase.span (c :: rest) = .whole kind [c] rest := by
  simp only [span, h]

theorem span_stop {phase : Phase} {c : Char} {kind : Kind} (h : phase.move c = .stop kind)
    (rest : List Char) : phase.span (c :: rest) = .whole kind [] (c :: rest) := by
  simp only [span, h]

/-- A span neither loses nor repeats a character. -/
theorem taken_append_left (phase : Phase) (cs : List Char) :
    (phase.span cs).taken ++ (phase.span cs).left = cs := by
  induction cs generalizing phase with
  | nil => rfl
  | cons c rest ih =>
      cases hmove : phase.move c with
      | extend next =>
          rw [span_extend hmove, Span.taken_cons, Span.left_cons,
            List.cons_append, ih]
      | close kind => rw [span_close hmove]; rfl
      | stop kind => rw [span_stop hmove]; rfl

/-- What is left is the list without the lexeme. -/
theorem left_eq_drop (phase : Phase) (cs : List Char) :
    (phase.span cs).left = cs.drop (phase.span cs).taken.length := by
  have hsplit := phase.taken_append_left cs
  generalize phase.span cs = s at hsplit ⊢
  rw [← hsplit, List.drop_left]

-- ============================================================ the bridge

/-- Where a run comes to that meets this span: at the end of the lexeme,
or behind the ready characters in the phase they end in. -/
def resume (text : String) (supply : Supply) : Span → Reach
  | .whole kind taken left =>
      ⟨text ++ String.ofList taken, .complete kind, ⟨left, supply⟩⟩
  | .cut phase taken => phase.run (text ++ String.ofList taken) ⟨[], supply⟩

theorem resume_cons (text : String) (supply : Supply) (c : Char) (s : Span) :
    resume text supply (s.cons c) = resume (text.push c) supply s := by
  have htext (taken : List Char) :
      text ++ String.ofList (c :: taken) = text.push c ++ String.ofList taken := by
    rw [← String.toList_inj]
    simp
  cases s with
  | whole kind taken left => simp only [Span.cons, resume, htext]
  | cut phase taken => simp only [Span.cons, resume, htext]

/-- A run reads its ready characters as their span says. -/
theorem run_ready (phase : Phase) (text : String) (cs : List Char) (supply : Supply) :
    phase.run text ⟨cs, supply⟩ = resume text supply (phase.span cs) := by
  induction cs generalizing phase text with
  | nil => simp [span, resume]
  | cons c rest ih =>
      have hnext : CharSource.next ⟨c :: rest, supply⟩ = (.ok (some c), ⟨rest, supply⟩) := rfl
      rw [run]
      split
      next h => rw [hnext] at h; simp at h
      next h => rw [hnext] at h; simp at h
      next d source h =>
        rw [hnext] at h
        simp only [Prod.mk.injEq, Except.ok.injEq, Option.some.injEq] at h
        obtain ⟨rfl, rfl⟩ := h
        cases hmove : phase.move c with
        | extend next => rw [span_extend hmove, resume_cons, ← ih]
        | close kind =>
            rw [span_close hmove]
            simp only [resume]
            rw [String.push_eq_append]
            rfl
        | stop kind =>
            rw [span_stop hmove]
            simp [resume, CharSource.unread]

/-- With nothing ready and nothing to follow a run ends where it stands. -/
theorem run_ended (phase : Phase) (text : String) :
    phase.run text ⟨[], .ended⟩ = ⟨text, .ended phase, ⟨[], .ended⟩⟩ := by
  have hnext : CharSource.next ⟨[], .ended⟩ = (.ok none, ⟨[], .ended⟩) := by
    simp [CharSource.next, Supply.more]
  rw [run]
  split
  next h => rw [hnext] at h; simp at h
  next h => rw [hnext] at h; simp at h; rw [h]
  next h => rw [hnext] at h; simp at h

end Phase

end LayeredLexer
