/-
Streams that yield a list of tokens and then end. `Yields` follows the
list: a peek shows the first token, and the stream behind it yields the
others; at the end of the list a peek finds the end of the input. Nothing
else of a stream matters to a layer that only draws on it, so what a layer
does over a whole source is an induction on the list.

# Where such streams come from

A tokenizer that does not fail yields what it delivers (`yields_delivered`),
and a line counter around a stream yields what the stream does
(`Yields.lines`). The end is found once and then stays (`peek_peek_end`).
-/
import LayeredLexer.Proofs.Lexer.Tiling

namespace LayeredLexer

/-- A lex step finds out what is in front. -/
theorem Tokenizer.front_lex_ne (t : Tokenizer) : t.lex.front ≠ .unread := by
  unfold lex
  dsimp only
  split
  · simp [hold]
  · simp
  · split <;> simp [hold, fail]
  · split <;> simp [hold, fail]

/-- So does a look. -/
theorem Tokenizer.front_peek_ne (t : Tokenizer) : t.peek.2.1.front ≠ .unread := by
  unfold peek
  split
  · next hfront =>
    dsimp only
    unfold advance
    split
    · simp
    · exact t.front_lex_ne
  · next hfront => exact hfront

namespace Stream

variable {s : Stream}

-- ============================================================= consuming

theorem consume_of_peek_token {token : Token} (h : s.peek.result = .ok (some token)) :
    s.consume = ⟨.ok token, s.peek.stream.drop, s.peek.events⟩ := by
  rw [consume_eq_takeNext, takeNext]
  split <;> simp_all

theorem consume_of_peek_end (h : s.peek.result = .ok none) :
    s.consume = ⟨.error .endOfInput, s.peek.stream, s.peek.events⟩ := by
  rw [consume_eq_takeNext, takeNext]
  split <;> simp_all

theorem consume_of_peek_error {error : LexError} (h : s.peek.result = .error error) :
    s.consume = ⟨.error error, s.peek.stream, s.peek.events⟩ := by
  rw [consume_eq_takeNext, takeNext]
  split <;> simp_all

-- ================================================================ layers

section Layers

variable {token : Token} {nesting : Nesting}

/-- A line counter that holds nothing shows the token in front of the
stream below it, and counts it. -/
theorem peek_lines_token (h : s.peek.result = .ok (some token)) (line : Nat) :
    (lines ⟨none, line⟩ s).peek
      = ⟨.ok (some token), .lines (LineCount.receive ⟨none, line⟩ token) s.peek.stream.drop,
        s.peek.events⟩ := by
  rw [peek]
  dsimp only
  split <;> simp_all

theorem peek_lines_end (h : s.peek.result = .ok none) (line : Nat) :
    (lines ⟨none, line⟩ s).peek = ⟨.ok none, .lines ⟨none, line⟩ s.peek.stream, s.peek.events⟩ := by
  rw [peek]
  dsimp only
  split <;> simp_all

/-- A balance check shows the token that it holds. -/
theorem peek_balance_held (h : nesting.pending = some token) :
    (balance nesting s).peek = ⟨.ok (some token), balance nesting s, []⟩ := by
  rw [peek, h]

/-- It is taken without another check. -/
theorem consume_balance_held (h : nesting.pending = some token) :
    (balance nesting s).consume = ⟨.ok token, balance { nesting with pending := none } s, []⟩ := by
  rw [consume, takeNext, peek_balance_held h]
  rfl

/-- Holding none it judges the one in front of the stream below it. -/
theorem peek_balance_token (hnone : nesting.pending = none)
    (h : s.peek.result = .ok (some token)) :
    (balance nesting s).peek
      = judge (some token) (nesting.receive token) s.peek.stream.drop s.peek.events := by
  rw [peek, hnone]
  dsimp only
  split <;> simp_all

theorem peek_balance_end (hnone : nesting.pending = none) (h : s.peek.result = .ok none) :
    (balance nesting s).peek = judge none nesting.close s.peek.stream s.peek.events := by
  rw [peek, hnone]
  dsimp only
  split <;> simp_all

end Layers

-- =============================================================== the end

/-- A peek that finds the end finds it again, and changes nothing more. -/
theorem peek_peek_end (h : s.peek.result = .ok none) :
    s.peek.stream.peek = ⟨.ok none, s.peek.stream, []⟩ := by
  induction s with
  | script s =>
      simp only [peek, Script.peek] at h ⊢
      split at h <;> simp_all
  | tokenizer t =>
      have hfront := t.front_peek_ne
      simp only [peek] at h ⊢
      rw [t.peek_eq_look] at h
      generalize t.peek.2.1 = u at h hfront ⊢
      unfold Tokenizer.look at h
      unfold Tokenizer.peek
      split at h <;> simp_all [Tokenizer.look]
  | lines count inner ih =>
      simp only [peek] at h ⊢
      split at h
      · simp_all
      · split at h <;> simp_all [peek]
  | balance nesting inner ih =>
      simp only [peek] at h ⊢
      split at h
      · simp_all
      · split at h
        · unfold judge at h
          split at h <;> simp_all
        · unfold judge Nesting.close at h ⊢
          cases hopened : nesting.opened <;> simp_all [peek, judge, Nesting.close]
        · simp_all
  | buffer lookahead inner ih =>
      simp only [peek] at h ⊢
      split at h
      · simp_all
      · split at h <;> simp_all [peek]

-- ================================================================ yields

/-- Peeks show these tokens, each one when the one before it is taken, and
then the end. -/
def Yields (s : Stream) : List Token → Prop
  | [] => s.peek.result = .ok none
  | token :: rest => s.peek.result = .ok (some token) ∧ s.peek.stream.drop.Yields rest

/-- A tokenizer that comes to the end of its input yields what it
delivers. -/
theorem yields_delivered {t : Tokenizer} (h : (tokenizer t).delivered.last = .endOfInput) :
    (tokenizer t).Yields (tokenizer t).delivered.tokens := by
  -- each token that is taken lowers the bound on items
  induction hn : (tokenizer t).itemsAhead using Nat.strong_induction_on generalizing t with
  | _ n ih =>
      cases hresult : (tokenizer t).peek.result with
      | error error =>
          have hconsume := consume_of_peek_error hresult
          rw [delivered_error (congrArg Answer.result hconsume)] at h
          have hlook : t.peek.2.1.look = .error error := by
            rw [← t.peek_eq_look]
            exact hresult
          unfold Tokenizer.look at hlook
          split at hlook <;> simp_all
      | ok shown =>
          cases shown with
          | none =>
              have hconsume := consume_of_peek_end hresult
              rw [delivered_error (congrArg Answer.result hconsume)]
              exact hresult
          | some token =>
              have hconsume := consume_of_peek_token hresult
              have hless := itemsAhead_consume_lt hconsume
              have hnext : (tokenizer t).peek.stream.drop = tokenizer t.peek.2.1.drop := rfl
              rw [delivered_ok (congrArg Answer.result hconsume), hconsume, hnext] at h ⊢
              rw [hnext, hn] at hless
              exact ⟨hresult, ih _ hless h rfl⟩

/-- A line counter that holds nothing yields what the stream below it
does. -/
theorem Yields.lines {tokens : List Token} (h : s.Yields tokens) (line : Nat) :
    (lines ⟨none, line⟩ s).Yields tokens := by
  induction tokens generalizing s line with
  | nil =>
      show (Stream.lines ⟨none, line⟩ s).peek.result = .ok none
      rw [peek_lines_end h]
  | cons token rest ih =>
      obtain ⟨hshown, hrest⟩ := h
      refine ⟨by rw [peek_lines_token hshown], ?_⟩
      rw [peek_lines_token hshown]
      exact ih hrest _

end Stream

end LayeredLexer
