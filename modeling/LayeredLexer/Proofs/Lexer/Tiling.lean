/-
The tokens of a text tile it. Consuming until something other than a
token is answered gives a delivery: the tokens, and the error that came
last, which is the end of the input or a failure. Over a text a delivery
can be read off the characters alone (`Delivery.ofText`, by recursion on
what is left behind each lexeme), and `delivered_over` ties the two
together; the tokenizer's state does not occur below it.

# The tiling

Each token is the span of one lexeme, so it has characters, it starts
where the one before ended, and its text is cut off the front of the rest
(`ofText_tiles`). The tokens therefore cover the text up to the end, or
up to the construct that is never closed.
-/
import LayeredLexer.Proofs.Lexer.OverText
import Mathlib.Data.List.Chain

namespace LayeredLexer

/-- The tokens that were delivered, and the error behind them. -/
structure Delivery where
  tokens : List Token
  last : LexError
deriving DecidableEq, Repr

namespace Delivery

/-- The delivery with one more token in front. -/
def cons (token : Token) (d : Delivery) : Delivery := ⟨token :: d.tokens, d.last⟩

/-- The texts of the tokens, put together. -/
def text (d : Delivery) : String := String.join (d.tokens.map (·.text))

@[simp] theorem text_cons (token : Token) (d : Delivery) :
    (d.cons token).text = token.text ++ d.text := by
  simp [text, cons]

end Delivery

/-- Consumes until no token is answered. -/
def Stream.delivered (s : Stream) : Delivery :=
  match _hconsume : s.consume with
  | ⟨.ok token, next, _⟩ => next.delivered.cons token
  | ⟨.error error, _, _⟩ => ⟨[], error⟩
termination_by s.itemsAhead
decreasing_by exact itemsAhead_consume_lt _hconsume

theorem Stream.delivered_ok {s : Stream} {token : Token} (h : s.consume.result = .ok token) :
    s.delivered = s.consume.stream.delivered.cons token := by
  rw [delivered]
  split <;> simp_all

theorem Stream.delivered_error {s : Stream} {error : LexError}
    (h : s.consume.result = .error error) : s.delivered = ⟨[], error⟩ := by
  rw [delivered]
  split <;> simp_all

-- ===================================================== deliveries of a text

/-- The first lexeme of a text that is not empty takes its first
character. -/
theorem Phase.exists_span_cons (c : Char) (rest : List Char) :
    ∃ s : Span, fresh.span (c :: rest) = s.cons c := by
  cases hmove : fresh.move c with
  | extend next => exact ⟨_, span_extend hmove rest⟩
  | close kind => exact ⟨.whole kind [] rest, span_close hmove rest⟩
  | stop kind => exact absurd hmove (start_ne_stop c kind)

/-- So less is left behind it. -/
theorem Phase.length_left_lt {cs : List Char} (h : cs ≠ []) :
    (fresh.span cs).left.length < cs.length := by
  obtain ⟨c, rest, rfl⟩ := List.exists_cons_of_ne_nil h
  obtain ⟨s, hs⟩ := exists_span_cons c rest
  have hsplit := congrArg List.length (fresh.taken_append_left (c :: rest))
  rw [hs, Span.taken_cons, Span.left_cons] at hsplit
  rw [hs, Span.left_cons]
  simp only [List.cons_append, List.length_cons, List.length_append] at *
  omega

/-- What a text from an offset delivers, read off its lexemes. -/
def Delivery.ofText (offset : Nat) (cs : List Char) : Delivery :=
  if _hend : cs = [] then ⟨[], .endOfInput⟩
  else
    let s := Phase.fresh.span cs
    match s.lexeme.answer offset with
    | .ok token => (ofText (offset + s.taken.length) s.left).cons token
    | .error error => ⟨[], error⟩
termination_by cs.length
decreasing_by exact Phase.length_left_lt _hend

namespace Stream

/-- At the end of a text there is no token to take. -/
theorem consume_over_end {text : List Char} {t : Tokenizer} (h : t.Over text)
    (hfront : t.front = .unread) (hrest : text.drop t.offset = []) :
    (tokenizer t).consume.result = .error .endOfInput := by
  have hpeek : (tokenizer t).peek.result = .ok none := by
    show t.peek.1 = _
    rw [t.peek_eq_look, Tokenizer.peek_over h hfront, Tokenizer.lex_over_end h hrest]
    rfl
  rw [consume, takeNext]
  split <;> simp_all

/-- Taking a token that is read over a text leaves a tokenizer over the
same text behind its lexeme, with nothing in front. -/
theorem consume_over {text : List Char} {t : Tokenizer} (h : t.Over text)
    (hfront : t.front = .unread) (hrest : text.drop t.offset ≠ []) {token : Token}
    (hread : (Phase.fresh.span (text.drop t.offset)).lexeme.answer t.offset = .ok token) :
    (tokenizer t).consume.result = .ok token
      ∧ ∃ next, (tokenizer t).consume.stream = tokenizer next ∧ next.Over text
        ∧ next.front = .unread
        ∧ next.offset = t.offset + (Phase.fresh.span (text.drop t.offset)).taken.length := by
  obtain ⟨hstream, hshown⟩ := peek_over h hfront hrest
  rw [hread] at hshown
  have htaken : (tokenizer t).consume
      = ⟨.ok token, (tokenizer t).peek.stream.drop, (tokenizer t).peek.events⟩ := by
    rw [consume, takeNext]
    split <;> simp_all [Except.map]
  have hover := Tokenizer.over_past text t
  rw [htaken, hstream]
  refine ⟨rfl, _, rfl, Tokenizer.over_drop hover, ?_⟩
  cases hlexeme : (Phase.fresh.span (text.drop t.offset)).lexeme with
  | token kind chars =>
      simp [Tokenizer.drop, Tokenizer.past, hlexeme, Lexeme.front]
  | openComment | openQuote => rw [hlexeme] at hread; cases hread

/-- A tokenizer over a text delivers what the rest of the text does. -/
theorem delivered_over {text : List Char} {t : Tokenizer} (h : t.Over text)
    (hfront : t.front = .unread) :
    (tokenizer t).delivered = .ofText t.offset (text.drop t.offset) := by
  -- the induction is on what is left behind the offset
  induction hn : (text.drop t.offset).length using Nat.strong_induction_on generalizing t with
  | _ n ih =>
      rw [Delivery.ofText]
      split
      next hend => exact delivered_error (consume_over_end h hfront hend)
      next hmore =>
        dsimp only
        split
        next token hread =>
          obtain ⟨hresult, next, hstream, hover, hunread, hoffset⟩ :=
            consume_over h hfront hmore hread
          have hleft : text.drop next.offset
              = (Phase.fresh.span (text.drop t.offset)).left := by
            rw [hoffset, Phase.left_eq_drop, List.drop_drop]
          have hless : (text.drop next.offset).length < n := by
            rw [hleft, ← hn]
            exact Phase.length_left_lt hmore
          rw [delivered_ok hresult, hstream, ih _ hless hover hunread rfl, hleft, hoffset]
        next error hread =>
          refine delivered_error (consume_result ?_)
          rw [(peek_over h hfront hmore).2, hread]

/-- What a text delivers can be read off its characters. -/
theorem delivered_ofString (text : String) :
    (ofSource (.ofString text)).delivered = .ofText 0 text.toList :=
  delivered_over (Tokenizer.over_ofSource text) rfl

end Stream

-- ============================================================== the tiling

/-- Tokens with characters that follow each other from `start` to `stop`. -/
def Tiles (start : Nat) : List Token → Nat → Prop
  | [], stop => start = stop
  | token :: rest, stop =>
      token.offset = start ∧ token.text ≠ "" ∧ Tiles (start + token.text.length) rest stop

namespace Tiles

variable {start stop : Nat} {tokens : List Token}

theorem nonempty (h : Tiles start tokens stop) : ∀ token ∈ tokens, token.text ≠ "" := by
  induction tokens generalizing start with
  | nil => simp
  | cons first rest ih =>
      obtain ⟨-, hfirst, hrest⟩ := h
      intro token htoken
      rcases List.mem_cons.1 htoken with rfl | htoken
      · exact hfirst
      · exact ih hrest token htoken

theorem head (h : Tiles start tokens stop) :
    ∀ token, tokens.head? = some token → token.offset = start := by
  cases tokens with
  | nil => simp
  | cons first rest =>
      intro token htoken
      obtain rfl : first = token := by simpa using htoken
      exact h.1

theorem chain (h : Tiles start tokens stop) :
    tokens.IsChain fun a b => b.offset = a.offset + a.text.length := by
  induction tokens generalizing start with
  | nil => exact .nil
  | cons first rest ih =>
      obtain ⟨hstart, -, hrest⟩ := h
      cases rest with
      | nil => exact .singleton first
      | cons second rest =>
          refine List.isChain_cons_cons.2 ⟨?_, ih hrest⟩
          rw [hstart]
          exact hrest.head second rfl

theorem start_le (h : Tiles start tokens stop) : ∀ token ∈ tokens, start ≤ token.offset := by
  induction tokens generalizing start with
  | nil => simp
  | cons first rest ih =>
      obtain ⟨hstart, -, hrest⟩ := h
      intro token htoken
      rcases List.mem_cons.1 htoken with rfl | htoken
      · omega
      · have hbehind := ih hrest token htoken
        omega

/-- Tokens that follow each other do not overlap. -/
theorem pairwise (h : Tiles start tokens stop) :
    tokens.Pairwise fun a b => a.offset + a.text.length ≤ b.offset := by
  induction tokens generalizing start with
  | nil => exact .nil
  | cons first rest ih =>
      obtain ⟨rfl, -, hrest⟩ := h
      exact .cons hrest.start_le (ih hrest)

theorem append {front back : List Token} (h : Tiles start (front ++ back) stop) :
    ∃ middle, Tiles start front middle ∧ Tiles middle back stop := by
  induction front generalizing start with
  | nil => exact ⟨start, rfl, h⟩
  | cons first front ih =>
      obtain ⟨hstart, hne, hrest⟩ := h
      obtain ⟨middle, hfront, hback⟩ := ih hrest
      exact ⟨middle, ⟨hstart, hne, hfront⟩, hback⟩

/-- Tokens that follow each other end in one place. -/
theorem stop_unique {other : Nat} (h : Tiles start tokens stop)
    (hother : Tiles start tokens other) : stop = other := by
  induction tokens generalizing start with
  | nil => exact h.symm.trans hother
  | cons first rest ih => exact ih h.2.2 hother.2.2

theorem le (h : Tiles start tokens stop) : start ≤ stop := by
  induction tokens generalizing start with
  | nil => exact Nat.le_of_eq h
  | cons first rest ih => exact (Nat.le_add_right _ _).trans (ih h.2.2)

end Tiles

/-- A token that is read from an offset starts there and has the
characters of its span. -/
theorem Span.eq_of_answer_ok {s : Span} {offset : Nat} {token : Token}
    (h : s.lexeme.answer offset = .ok token) :
    token.offset = offset ∧ token.text = String.ofList s.taken := by
  cases s with
  | whole kind taken left =>
      cases h
      exact ⟨rfl, rfl⟩
  | cut phase taken =>
      cases phase <;> cases h <;> exact ⟨rfl, rfl⟩

/-- What is not read as a token is a construct that is never closed. -/
theorem Lexeme.eq_of_answer_error {x : Lexeme} {offset : Nat} {error : LexError}
    (h : x.answer offset = .error error) :
    error = .failure (.unterminatedQuote offset)
      ∨ error = .failure (.unterminatedComment offset) := by
  cases x with
  | token kind text => cases h
  | openComment => exact Or.inr (by cases h; rfl)
  | openQuote => exact Or.inl (by cases h; rfl)

/-- The tokens of a text follow each other from its offset, and their
texts are cut off its front: up to its end, or up to the construct that is
never closed. -/
theorem Delivery.ofText_tiles (offset : Nat) (cs : List Char) :
    ∃ stop, Tiles offset (ofText offset cs).tokens stop
      ∧ offset ≤ stop
      ∧ (ofText offset cs).text = String.ofList (cs.take (stop - offset))
      ∧ ((ofText offset cs).last = .endOfInput ∧ stop = offset + cs.length
        ∨ stop < offset + cs.length
          ∧ ((ofText offset cs).last = .failure (.unterminatedQuote stop)
            ∨ (ofText offset cs).last = .failure (.unterminatedComment stop))) := by
  fun_induction ofText offset cs with
  | case1 offset =>
      exact ⟨offset, rfl, Nat.le_refl _, by simp [text], Or.inl ⟨rfl, by simp⟩⟩
  | case2 offset cs hmore s token hread ih =>
      obtain ⟨stop, htiles, hle, htext, hlast⟩ := ih
      obtain ⟨hstart, hchars⟩ := Span.eq_of_answer_ok hread
      have hsplit : s.taken ++ s.left = cs := Phase.fresh.taken_append_left cs
      have hlength : s.taken.length + s.left.length = cs.length := by
        rw [← hsplit, List.length_append]
      have hless : s.left.length < cs.length := Phase.length_left_lt hmore
      have hne : token.text ≠ "" := by
        intro hempty
        have : s.taken.length = 0 := by
          simpa [hchars] using congrArg String.length hempty
        omega
      refine ⟨stop, ⟨hstart, hne, by simpa [hchars] using htiles⟩, by omega, ?_, ?_⟩
      · have htake : cs.take (stop - offset)
            = s.taken ++ s.left.take (stop - (offset + s.taken.length)) := by
          rw [← hsplit, List.take_append, List.take_of_length_le (by omega), Nat.sub_sub]
        rw [text_cons, htext, hchars, htake, String.ofList_append]
      · rcases hlast with ⟨hend, hat⟩ | ⟨hbefore, hfailed⟩
        · exact Or.inl ⟨hend, by omega⟩
        · exact Or.inr ⟨by omega, hfailed⟩
  | case3 offset cs hmore s error hread =>
      have hpos : 0 < cs.length := List.length_pos_iff.2 hmore
      refine ⟨offset, rfl, Nat.le_refl _, by simp [text], Or.inr ⟨by omega, ?_⟩⟩
      exact Lexeme.eq_of_answer_error hread

/-- The tokens that a text delivers have characters, begin at its front
and follow each other; put together they are the whole text if consuming
came to its end, and otherwise all of it before the quote or the comment
that is never closed. -/
theorem Stream.delivered_tiles (text : String) :
    let d := (ofSource (.ofString text)).delivered
    (∀ token ∈ d.tokens, token.text ≠ "")
      ∧ (∀ token, d.tokens.head? = some token → token.offset = 0)
      ∧ d.tokens.IsChain (fun a b => b.offset = a.offset + a.text.length)
      ∧ (d.last = .endOfInput ∧ d.text = text
        ∨ ∃ offset < text.length,
            (d.last = .failure (.unterminatedQuote offset)
              ∨ d.last = .failure (.unterminatedComment offset))
            ∧ d.text = String.ofList (text.toList.take offset)) := by
  have hdelivered : (ofSource (.ofString text)).delivered = .ofText 0 text.toList :=
    delivered_over (Tokenizer.over_ofSource text) rfl
  obtain ⟨stop, htiles, -, htext, hlast⟩ := Delivery.ofText_tiles 0 text.toList
  rw [← hdelivered] at htiles htext hlast
  refine ⟨htiles.nonempty, htiles.head, htiles.chain, ?_⟩
  rcases hlast with ⟨hend, hat⟩ | ⟨hbefore, hfailed⟩
  · refine Or.inl ⟨hend, ?_⟩
    rw [htext, hat]
    simp
  · rw [Nat.zero_add, String.length_toList] at hbefore
    exact Or.inr ⟨stop, hbefore, hfailed, htext⟩

end LayeredLexer
