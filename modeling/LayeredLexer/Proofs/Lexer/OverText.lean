/-
Tokenizers over a text, and the grammar they deliver. At every point of
every run of requests the source of such a tokenizer holds exactly the
characters behind its offset (`Over`), nothing has failed and nothing is
deferred. One lex step is therefore a function of the offset alone: the
first lexeme of the rest of the text (`lex_over`). With the automaton's
agreement with the grammar this gives the main statement: wherever a
token is started, what is delivered is what the grammar reads there, and
the grammar reads one thing only.
-/
import LayeredLexer.Proofs.Lexer.Grammar
import LayeredLexer.Stream.Drain

namespace LayeredLexer

namespace Lexeme

/-- What a tokenizer has in front when it has read this from an offset. -/
def front (offset : Nat) : Lexeme → Front
  | token kind text => .held ⟨kind, String.ofList text, offset⟩
  | openComment => .failed (.unterminatedComment offset)
  | openQuote => .failed (.unterminatedQuote offset)

/-- What a request for the next token is answered with. -/
def answer (offset : Nat) : Lexeme → Except LexError Token
  | token kind text => .ok ⟨kind, String.ofList text, offset⟩
  | openComment => .error (.failure (.unterminatedComment offset))
  | openQuote => .error (.failure (.unterminatedQuote offset))

end Lexeme

-- ============================================================ the lex step

/-- Only no characters at all end in the fresh phase. -/
theorem Phase.eq_nil_of_span_cut_fresh {phase : Phase} {cs taken : List Char}
    (h : phase.span cs = .cut .fresh taken) : phase = .fresh ∧ cs = [] := by
  induction cs generalizing phase taken with
  | nil =>
      rw [span_nil] at h
      cases h
      exact ⟨rfl, rfl⟩
  | cons c rest ih =>
      cases hmove : phase.move c with
      | extend next =>
          rw [span_extend hmove] at h
          cases hspan : next.span rest with
          | whole kind taken left => rw [hspan] at h; cases h
          | cut last taken =>
              rw [hspan] at h
              cases h
              obtain ⟨rfl, -⟩ := ih hspan
              exact absurd hmove (phase.move_ne_fresh c)
      | close kind => rw [span_close hmove] at h; cases h
      | stop kind => rw [span_stop hmove] at h; cases h

namespace Tokenizer

/-- A tokenizer over a text: its source holds what is behind the offset,
and no failure waits. -/
structure Over (text : List Char) (t : Tokenizer) : Prop where
  source : t.source = ⟨text.drop t.offset, .ended⟩
  deferred : t.deferred = none

variable {text : List Char} {t : Tokenizer}

theorem over_ofSource (text : String) : (ofSource (.ofString text)).Over text.toList :=
  ⟨rfl, rfl⟩

/-- The tokenizer after the first lexeme of the characters behind the
offset. -/
def past (t : Tokenizer) (s : Span) : Tokenizer :=
  ⟨⟨s.left, .ended⟩, t.offset + s.taken.length, s.lexeme.front t.offset, none⟩

/-- A lex step over a text reads the first lexeme behind the offset. -/
theorem lex_over (h : t.Over text) (hrest : text.drop t.offset ≠ []) :
    t.lex = t.past (Phase.fresh.span (text.drop t.offset)) := by
  rw [lex, h.source, Phase.run_ready]
  cases hspan : Phase.fresh.span (text.drop t.offset) with
  | whole kind taken left =>
      simp [Phase.resume, hold, past, Span.left, Span.taken, Span.lexeme, Lexeme.front]
  | cut last taken =>
      rw [Phase.resume, Phase.run_ended]
      cases last with
      | fresh => exact absurd (Phase.eq_nil_of_span_cut_fresh hspan).2 hrest
      | slash | lineComment | word | space =>
          simp [Phase.ending, hold, past, Span.left, Span.taken, Span.lexeme, Lexeme.front]
      | blockComment | quoted | escaped =>
          simp [Phase.ending, fail, past, Span.left, Span.taken, Span.lexeme, Lexeme.front,
            Phase.opened, unterminated]

/-- Behind the last character it finds the end. -/
theorem lex_over_end (h : t.Over text) (hrest : text.drop t.offset = []) :
    t.lex = { t with front := .ended } := by
  rw [lex, h.source, hrest, Phase.run_ended]

/-- The span of the rest of a text leaves the rest behind its lexeme. -/
theorem over_past (text : List Char) (t : Tokenizer) :
    (t.past (Phase.fresh.span (text.drop t.offset))).Over text := by
  refine ⟨?_, rfl⟩
  simp only [past]
  rw [Phase.left_eq_drop, List.drop_drop]

/-- The front behind a lexeme answers with it. -/
theorem look_past (t : Tokenizer) (s : Span) :
    (t.past s).look = (s.lexeme.answer t.offset).map some := by
  rw [past, look]
  cases s.lexeme <;> rfl

theorem over_lex (h : t.Over text) : t.lex.Over text := by
  by_cases hrest : text.drop t.offset = []
  · rw [lex_over_end h hrest]
    exact ⟨h.source, h.deferred⟩
  · rw [lex_over h hrest]
    exact over_past text t

/-- A look at an unread front is a lex step. -/
theorem peek_over (h : t.Over text) (hfront : t.front = .unread) : t.peek.2.1 = t.lex := by
  simp only [peek, hfront, advance, h.deferred]

theorem over_peek (h : t.Over text) : t.peek.2.1.Over text := by
  by_cases hfront : t.front = .unread
  · rw [peek_over h hfront]
    exact over_lex h
  · cases hfront' : t.front with
    | unread => exact absurd hfront' hfront
    | held | ended | failed =>
        simp only [peek, hfront']
        exact h

theorem over_drop (h : t.Over text) : t.drop.Over text := by
  unfold drop
  split
  · exact ⟨h.source, h.deferred⟩
  · exact h

end Tokenizer

-- ================================================================ requests

namespace Stream

/-- The requests that every stream answers. -/
inductive Request where
  | peek
  | hasMore
  | consume
deriving DecidableEq, Repr

/-- The stream after a request. -/
def serve (s : Stream) : Request → Stream
  | .peek => s.peek.stream
  | .hasMore => s.hasMore.stream
  | .consume => s.consume.stream

/-- The stream after a run of requests. -/
def serveAll (s : Stream) (requests : List Request) : Stream := requests.foldl serve s

/-- A request for a token leaves the stream as a peek does, or takes the
token that the peek shows. -/
theorem consume_stream (s : Stream) :
    s.consume.stream = s.peek.stream ∨ s.consume.stream = s.peek.stream.drop := by
  rw [consume_eq_takeNext, takeNext]
  split <;> simp_all

/-- A request to a tokenizer keeps to the text it is over. -/
theorem serve_over {text : List Char} {t : Tokenizer} (h : t.Over text) (request : Request) :
    ∃ next, (tokenizer t).serve request = tokenizer next ∧ next.Over text := by
  have hpeek : (tokenizer t).peek.stream = tokenizer t.peek.2.1 := rfl
  cases request with
  | peek => exact ⟨_, hpeek, Tokenizer.over_peek h⟩
  | hasMore => exact ⟨_, hpeek, Tokenizer.over_peek h⟩
  | consume =>
      rcases (tokenizer t).consume_stream with hsame | hdrop
      · exact ⟨_, hsame.trans hpeek, Tokenizer.over_peek h⟩
      · exact ⟨_, hdrop.trans (congrArg drop hpeek), Tokenizer.over_drop (Tokenizer.over_peek h)⟩

/-- So does every run of requests. -/
theorem serveAll_over {text : List Char} {t : Tokenizer} (h : t.Over text)
    (requests : List Request) :
    ∃ last, (tokenizer t).serveAll requests = tokenizer last ∧ last.Over text := by
  induction requests generalizing t with
  | nil => exact ⟨t, rfl, h⟩
  | cons request rest ih =>
      obtain ⟨next, hnext, hover⟩ := serve_over h request
      obtain ⟨last, hlast, hend⟩ := ih hover
      refine ⟨last, ?_, hend⟩
      rw [serveAll, List.foldl_cons, hnext]
      exact hlast

-- ========================================================= the deliveries

/-- A peek at an unread front over a text shows the first lexeme behind
the offset. -/
theorem peek_over {text : List Char} {t : Tokenizer} (h : t.Over text)
    (hfront : t.front = .unread) (hrest : text.drop t.offset ≠ []) :
    (tokenizer t).peek.stream = tokenizer (t.past (Phase.fresh.span (text.drop t.offset)))
      ∧ (tokenizer t).peek.result
        = ((Phase.fresh.span (text.drop t.offset)).lexeme.answer t.offset).map some := by
  have hlex := (Tokenizer.peek_over h hfront).trans (Tokenizer.lex_over h hrest)
  constructor
  · exact congrArg tokenizer hlex
  · show t.peek.1 = _
    rw [t.peek_eq_look, hlex, Tokenizer.look_past]

/-- A request for a token is answered with what a peek shows. -/
theorem consume_result {s : Stream} {answer : Except LexError Token}
    (h : s.peek.result = answer.map some) : s.consume.result = answer := by
  rw [consume_eq_takeNext, takeNext]
  cases answer with
  | ok token => split <;> simp_all [Except.map]
  | error error => split <;> simp_all [Except.map]

/-- Wherever a tokenizer over a text starts a token, the grammar reads
exactly one thing at the front of the rest of the text, and that is what
is delivered. -/
theorem delivers_grammar (text : String) (requests : List Request) (t : Tokenizer)
    (hrun : (ofSource (.ofString text)).serveAll requests = tokenizer t)
    (hfront : t.front = .unread) (hrest : text.toList.drop t.offset ≠ []) :
    ∃ x, (∀ y, Reads (text.toList.drop t.offset) y ↔ y = x)
      ∧ (tokenizer t).peek.result = (x.answer t.offset).map some
      ∧ (tokenizer t).consume.result = x.answer t.offset := by
  obtain ⟨last, hlast, hover⟩ := serveAll_over (Tokenizer.over_ofSource text) requests
  obtain rfl : t = last := by
    have hsame : tokenizer t = tokenizer last := hrun.symm.trans hlast
    injection hsame
  obtain ⟨-, hshown⟩ := peek_over hover hfront hrest
  refine ⟨(Phase.fresh.span (text.toList.drop t.offset)).lexeme, ?_, hshown,
    consume_result hshown⟩
  intro y
  rw [reads_iff hrest]
  exact eq_comm

/-- The tokenizer over `a/*/` that has delivered its word. -/
def behindWord : Tokenizer := ⟨⟨['/', '*', '/'], .ended⟩, 1, .unread, none⟩

/-- Behind the word of `a/*/`, where a comment is opened and not closed. -/
theorem delivers_grammar_behind_word :
    (ofSource (.ofString "a/*/")).serveAll [.hasMore, .consume] = tokenizer behindWord
      ∧ behindWord.front = .unread ∧ "a/*/".toList.drop behindWord.offset ≠ []
      ∧ ∃ x, (∀ y, Reads ("a/*/".toList.drop behindWord.offset) y ↔ y = x)
        ∧ (tokenizer behindWord).peek.result = (x.answer behindWord.offset).map some
        ∧ (tokenizer behindWord).consume.result = x.answer behindWord.offset := by
  have hrun : (ofSource (.ofString "a/*/")).serveAll [.hasMore, .consume]
      = tokenizer behindWord := by
    cbv
  exact ⟨hrun, rfl, by decide, delivers_grammar "a/*/" _ behindWord hrun rfl (by decide)⟩

end Stream

end LayeredLexer
