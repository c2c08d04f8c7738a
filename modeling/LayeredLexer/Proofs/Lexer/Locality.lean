/-
Lexing is local: a token depends on its own characters and on what stands
right behind them, on nothing before it and on nothing further on. So a
text can be cut behind any of its tokens and the two halves lexed apart,
and a text that is put behind another one disturbs at most the last token
of the other.

# The two cuts

Where a text is cut behind a token, the character that ended the token is
lost with the rest. The end of the text does the same service: a phase
that stops before a character may also end there (`ending_of_stop`), so
the lexeme is read from its own characters and any front of what stood
behind them (`lexeme_front`).

Where a text goes on instead, a lexeme that was whole stays as it is
(`span_append`). One that the end cut short may grow. It is the last one,
it is no failure, and its phase tells what it can be: a lone slash, a line
comment without its line end, a word or a blank (`Phase.Seen`). The other
tokens are sealed, and `not_sealed_of_cut` says that the end cuts none of
them short.
-/
import LayeredLexer.Proofs.Lexer.LineEnds

namespace LayeredLexer

-- ========================================================== one lexeme

theorem Lexeme.eq_of_cons_eq {x : Lexeme} {c d : Char} {kind : Kind} {taken : List Char}
    (h : x.cons c = .token kind (d :: taken)) : x = .token kind taken := by
  cases x with
  | token => cases h; rfl
  | openComment | openQuote => cases h

theorem Lexeme.cons_ne_nil {x : Lexeme} {c : Char} {kind : Kind} :
    x.cons c ≠ .token kind [] := by
  cases x <;> intro h <;> cases h

/-- The characters of a token are those its span has taken. -/
theorem Span.taken_of_lexeme {s : Span} {kind : Kind} {taken : List Char}
    (h : s.lexeme = .token kind taken) : s.taken = taken := by
  cases s with
  | whole => cases h; rfl
  | cut last => cases last <;> cases h <;> rfl

namespace Phase

variable {phase : Phase} {kind : Kind} {taken left : List Char}

/-- What is left behind a token is what stands behind its characters. -/
theorem left_of_lexeme (h : (phase.span (taken ++ left)).lexeme = .token kind taken) :
    (phase.span (taken ++ left)).left = left := by
  rw [left_eq_drop, Span.taken_of_lexeme h, List.drop_left]

/-- A phase that stops before some character may also end. -/
theorem ending_of_stop {c : Char} (h : phase.move c = .stop kind) :
    phase.ending = some kind := by
  cases phase with
  | fresh => exact absurd h (start_ne_stop c kind)
  | slash | word | space =>
      simp only [move] at h
      repeat' split at h
      all_goals cases h
      rfl
  | lineComment | blockComment | quoted | escaped =>
      simp only [move] at h
      repeat' split at h
      all_goals cases h

/-- A phase that takes no character for a token stops before the next one,
and may end. -/
theorem stop_of_lexeme_nil {cs : List Char} (h : (phase.span cs).lexeme = .token kind []) :
    phase.ending = some kind ∧ ∀ c ∈ cs.head?, phase.move c = .stop kind := by
  cases cs with
  | nil =>
      refine ⟨?_, by simp⟩
      cases phase <;> cases h <;> rfl
  | cons c rest =>
      cases hmove : phase.move c with
      | extend next =>
          rw [span_extend hmove, Span.lexeme_cons] at h
          exact absurd h Lexeme.cons_ne_nil
      | close kind => rw [span_close hmove] at h; cases h
      | stop kind =>
          rw [span_stop hmove] at h
          cases h
          exact ⟨ending_of_stop hmove, by simpa using hmove⟩

/-- A token is read from its own characters, whatever is kept of those
behind them. -/
theorem lexeme_front {front : List Char}
    (h : (phase.span (taken ++ left)).lexeme = .token kind taken) (hfront : front <+: left) :
    (phase.span (taken ++ front)).lexeme = .token kind taken := by
  induction taken generalizing phase with
  | nil =>
      obtain ⟨hending, hstop⟩ := stop_of_lexeme_nil h
      obtain ⟨more, rfl⟩ := hfront
      cases front with
      | nil => rw [List.nil_append, span_nil, Span.lexeme, hending]
      | cons c front => rw [List.nil_append, span_stop (hstop c rfl), Span.lexeme]
  | cons c taken ih =>
      rw [List.cons_append] at h ⊢
      cases hmove : phase.move c with
      | extend next =>
          rw [span_extend hmove, Span.lexeme_cons] at h ⊢
          rw [ih (Lexeme.eq_of_cons_eq h)]
          rfl
      | close kind =>
          rw [span_close hmove] at h ⊢
          exact h
      | stop kind =>
          rw [span_stop hmove] at h
          cases h

/-- A whole lexeme is the same if the text goes on. -/
theorem span_append {cs : List Char} (h : phase.span cs = .whole kind taken left)
    (more : List Char) : phase.span (cs ++ more) = .whole kind taken (left ++ more) := by
  induction cs generalizing phase taken with
  | nil => cases h
  | cons c rest ih =>
      rw [List.cons_append]
      cases hmove : phase.move c with
      | extend next =>
          rw [span_extend hmove] at h ⊢
          cases hspan : next.span rest with
          | whole kind taken left =>
              rw [hspan] at h
              cases h
              rw [ih hspan]
              rfl
          | cut last taken => rw [hspan] at h; cases h
      | close kind =>
          rw [span_close hmove] at h ⊢
          cases h
          rfl
      | stop kind =>
          rw [span_stop hmove] at h ⊢
          cases h
          rfl

end Phase

-- =================================================== one token of a text

namespace Delivery

/-- The first `k` tokens, with nothing behind them. -/
def take (k : Nat) (d : Delivery) : Delivery := ⟨d.tokens.take k, .endOfInput⟩

/-- What comes behind the first `k` tokens. -/
def drop (k : Nat) (d : Delivery) : Delivery := ⟨d.tokens.drop k, d.last⟩

@[simp] theorem take_cons (k : Nat) (token : Token) (d : Delivery) :
    (d.cons token).take (k + 1) = (d.take k).cons token := rfl

@[simp] theorem drop_cons (k : Nat) (token : Token) (d : Delivery) :
    (d.cons token).drop (k + 1) = d.drop k := rfl

theorem ofText_nil (offset : Nat) : ofText offset [] = ⟨[], .endOfInput⟩ := by
  rw [ofText, dif_pos rfl]

/-- A text that begins with a token delivers it, and then what the rest
delivers. -/
theorem ofText_token (offset : Nat) {kind : Kind} {taken left : List Char} (htaken : taken ≠ [])
    (h : (Phase.fresh.span (taken ++ left)).lexeme = .token kind taken) :
    ofText offset (taken ++ left)
      = (ofText (offset + taken.length) left).cons ⟨kind, String.ofList taken, offset⟩ := by
  rw [ofText, dif_neg (by simp [htaken])]
  simp only [h, Lexeme.answer, Span.taken_of_lexeme h, Phase.left_of_lexeme h]

/-- A text begins with a token, or delivers none. -/
theorem ofText_token_or_none (offset : Nat) (cs : List Char) :
    (∃ kind taken left, cs = taken ++ left ∧ taken ≠ []
        ∧ (Phase.fresh.span (taken ++ left)).lexeme = .token kind taken)
      ∨ (ofText offset cs).tokens = [] := by
  by_cases hend : cs = []
  · rw [hend, ofText_nil]
    exact Or.inr rfl
  · have hsplit := Phase.fresh.taken_append_left cs
    cases hlexeme : (Phase.fresh.span cs).lexeme with
    | token kind taken =>
        have htaken := Span.taken_of_lexeme hlexeme
        rw [htaken] at hsplit
        refine Or.inl ⟨kind, taken, (Phase.fresh.span cs).left, hsplit.symm, ?_, ?_⟩
        · rintro rfl
          have hless := Phase.length_left_lt hend
          rw [List.nil_append] at hsplit
          rw [hsplit] at hless
          exact Nat.lt_irrefl _ hless
        · rw [hsplit, hlexeme]
    | openComment | openQuote =>
        refine Or.inr ?_
        rw [ofText, dif_neg hend]
        simp only [hlexeme, Lexeme.answer]

/-- A text that is cut behind its first `k` tokens delivers those from the
front, and the others from the back. -/
theorem ofText_cut (offset : Nat) (cs : List Char) (k : Nat) :
    ∃ front back, front ++ back = cs
      ∧ ((ofText offset cs).take k).text = String.ofList front
      ∧ ofText offset front = (ofText offset cs).take k
      ∧ ofText (offset + front.length) back = (ofText offset cs).drop k := by
  induction k generalizing offset cs with
  | zero => exact ⟨[], cs, rfl, rfl, ofText_nil offset, rfl⟩
  | succ k ih =>
      rcases ofText_token_or_none offset cs with ⟨kind, taken, left, rfl, htaken, hread⟩ | hnone
      · obtain ⟨front, back, rfl, htext, hfront, hback⟩ := ih (offset + taken.length) left
        -- what ended the token may be gone with the back
        have hkept := Phase.lexeme_front hread (List.prefix_append front back)
        rw [ofText_token offset htaken hread, take_cons, drop_cons]
        refine ⟨taken ++ front, back, List.append_assoc taken front back, ?_, ?_, ?_⟩
        · rw [text_cons, htext, String.ofList_append]
        · rw [ofText_token offset htaken hkept, hfront]
        · rw [List.length_append, ← Nat.add_assoc, hback]
      · refine ⟨[], cs, rfl, ?_, ?_, ?_⟩
        · simp [take, text, hnone]
        · rw [ofText_nil, take, hnone, List.take_nil]
        · rw [drop, hnone, List.drop_nil, ← hnone]
          rfl

end Delivery

-- ============================================================ moved texts

/-- The failure, in a text that stands `n` characters further on. -/
def LexFailure.moved (n : Nat) : LexFailure → LexFailure
  | source cause offset => source cause (offset + n)
  | unterminatedQuote offset => unterminatedQuote (offset + n)
  | unterminatedComment offset => unterminatedComment (offset + n)

/-- The balance error there. -/
def BalanceError.moved (n : Nat) : BalanceError → BalanceError
  | unexpectedCloser found offset => unexpectedCloser found (offset + n)
  | mismatchedCloser expected found offset => mismatchedCloser expected found (offset + n)
  | unclosedDelimiter expected => unclosedDelimiter expected

/-- The token there. -/
def Token.moved (n : Nat) (token : Token) : Token := { token with offset := token.offset + n }

/-- The error there. -/
def LexError.moved (n : Nat) : LexError → LexError
  | failure f => failure (f.moved n)
  | balance e => balance (e.moved n)
  | endOfInput => endOfInput
  | invalidPushback token => invalidPushback (token.moved n)

/-- The delivery of a text, if it stands `n` characters further on. -/
def Delivery.moved (n : Nat) (d : Delivery) : Delivery :=
  ⟨d.tokens.map (·.moved n), d.last.moved n⟩

theorem Lexeme.answer_add (x : Lexeme) (offset n : Nat) :
    x.answer (offset + n) = match x.answer offset with
      | .ok shown => .ok (shown.moved n)
      | .error error => .error (error.moved n) := by
  cases x <;> rfl

/-- Nothing before a text matters but how long it is. -/
theorem Delivery.ofText_add (offset n : Nat) (cs : List Char) :
    ofText (offset + n) cs = (ofText offset cs).moved n := by
  fun_induction ofText offset cs with
  | case1 offset =>
      rw [ofText_nil]
      rfl
  | case2 offset cs hmore s token hread ih =>
      rw [ofText, dif_neg hmore]
      dsimp only
      rw [Lexeme.answer_add, hread]
      dsimp only
      rw [Nat.add_right_comm, ih]
      rfl
  | case3 offset cs hmore s error hread =>
      rw [ofText, dif_neg hmore]
      dsimp only
      rw [Lexeme.answer_add, hread]
      rfl

namespace Stream

/-- Lexing can begin anew behind any token. If a text is cut behind its
first `k` tokens, the front alone delivers those tokens and comes to its
end, and the back alone delivers the other tokens and ends as the text
does, at offsets that count from the cut. -/
theorem delivered_cut (text : String) (k : Nat) :
    let d := (ofSource (.ofString text)).delivered
    let front := (d.take k).text
    ∃ back, front ++ back = text
      ∧ (ofSource (.ofString front)).delivered = d.take k
      ∧ (ofSource (.ofString back)).delivered.moved front.length = d.drop k := by
  obtain ⟨front, back, hsplit, htext, hfront, hback⟩ := Delivery.ofText_cut 0 text.toList k
  dsimp only
  rw [delivered_ofString text, htext]
  refine ⟨String.ofList back, ?_, ?_, ?_⟩
  · rw [← String.ofList_append, hsplit, String.ofList_toList]
  · rw [delivered_ofString, String.toList_ofList, hfront]
  · rw [delivered_ofString, String.toList_ofList, String.length_ofList, ← Delivery.ofText_add,
      hback]

end Stream

-- ========================================================== texts that go on

/-- A token that its last character ends, so what stands behind it does not
matter. -/
inductive Token.Sealed (token : Token) : Prop
  | quote (kind : token.kind = .quote)
  | block (kind : token.kind = .comment) (mark : ['/', '*'] <+: token.text.toList)
  | line (kind : token.kind = .comment) (mark : ['/', '/'] <+: token.text.toList)
      (ended : token.text.toList.getLast? = some '\n')
  | symbol (kind : token.kind = .symbol) (noSlash : token.text ≠ "/")

namespace Phase

/-- What can have been read of a lexeme that is a token if it ends in this
phase. -/
def Seen : Phase → List Char → Prop
  | fresh, seen => seen = []
  | slash, seen => seen = ['/']
  | lineComment, seen => ['/', '/'] <+: seen ∧ '\n' ∉ seen
  | _, _ => True

theorem seen_of_move {phase next : Phase} {c : Char} {seen : List Char}
    (h : phase.move c = .extend next) (hseen : phase.Seen seen) : next.Seen (seen ++ [c]) := by
  cases phase with
  | fresh =>
      obtain rfl := hseen
      simp only [move, start] at h
      repeat' split at h
      all_goals cases h
      all_goals first
        | trivial
        | next hc => exact congrArg (fun c => [c]) hc
  | slash =>
      obtain rfl := hseen
      simp only [move] at h
      repeat' split at h
      all_goals cases h
      · next hc =>
        subst hc
        exact ⟨List.prefix_rfl, by decide⟩
      · trivial
  | lineComment =>
      obtain ⟨hmark, hnone⟩ := hseen
      simp only [move] at h
      split at h
      · cases h
      · next hc =>
        cases h
        refine ⟨hmark.trans (List.prefix_append seen [c]), ?_⟩
        simp [hnone, Ne.symm hc]
  | blockComment | quoted | escaped | word | space =>
      simp only [move] at h
      repeat' split at h
      all_goals cases h
      all_goals trivial

theorem seen_of_cut {phase last : Phase} {cs taken seen : List Char}
    (h : phase.span cs = .cut last taken) (hseen : phase.Seen seen) :
    last.Seen (seen ++ taken) := by
  induction cs generalizing phase taken seen with
  | nil =>
      cases h
      rw [List.append_nil]
      exact hseen
  | cons c rest ih =>
      cases hmove : phase.move c with
      | extend next =>
          rw [span_extend hmove] at h
          cases hspan : next.span rest with
          | whole => rw [hspan] at h; cases h
          | cut last taken =>
              rw [hspan] at h
              cases h
              rw [List.append_cons]
              exact ih hspan (seen_of_move hmove hseen)
      | close kind => rw [span_close hmove] at h; cases h
      | stop kind => rw [span_stop hmove] at h; cases h

/-- The end of a text cuts no sealed token short. -/
theorem not_sealed_of_cut {last : Phase} {cs taken : List Char} {offset : Nat} {token : Token}
    (h : fresh.span cs = .cut last taken)
    (hread : (Span.cut last taken).lexeme.answer offset = .ok token) : ¬ token.Sealed := by
  have hseen : last.Seen taken := seen_of_cut h rfl
  intro hsealed
  cases last with
  | fresh | blockComment | quoted | escaped => cases hread
  | word | space =>
      cases hread
      cases hsealed with
      | quote kind | block kind mark | line kind mark ended | symbol kind noSlash => cases kind
  | slash =>
      cases hread
      obtain rfl := hseen
      cases hsealed with
      | quote kind | block kind mark | line kind mark ended => cases kind
      | symbol kind noSlash => exact noSlash rfl
  | lineComment =>
      cases hread
      obtain ⟨⟨rest, rfl⟩, hnone⟩ := hseen
      cases hsealed with
      | quote kind | symbol kind noSlash => cases kind
      | block kind mark =>
          rw [String.toList_ofList] at mark
          simp at mark
      | line kind mark ended =>
          rw [String.toList_ofList] at ended
          exact hnone (List.mem_of_getLast? ended)

end Phase

/-- If a text goes on, its tokens stay as they are, or all but a last one
that its end had cut short. -/
theorem Delivery.ofText_append (offset : Nat) (cs more : List Char) :
    (ofText offset cs).tokens <+: (ofText offset (cs ++ more)).tokens
      ∨ ∃ front token, (ofText offset cs).tokens = front ++ [token]
        ∧ (ofText offset cs).last = .endOfInput ∧ ¬ token.Sealed
        ∧ front <+: (ofText offset (cs ++ more)).tokens := by
  fun_induction ofText offset cs with
  | case1 offset => exact Or.inl List.nil_prefix
  | case2 offset cs hmore s token hread ih =>
      cases hspan : Phase.fresh.span cs with
      | whole kind taken left =>
          simp only [s, hspan, Span.taken, Span.left] at hread ih ⊢
          have hlonger : ofText offset (cs ++ more)
              = (ofText (offset + taken.length) (left ++ more)).cons token := by
            rw [ofText, dif_neg (by simp [hmore])]
            dsimp only
            rw [Phase.span_append hspan more]
            cases hread
            rfl
          rw [hlonger]
          rcases ih with hkept | ⟨front, last, htokens, hend, hopen, hkept⟩
          · exact Or.inl ((List.prefix_cons_inj token).2 hkept)
          · refine Or.inr ⟨token :: front, last, ?_, hend, hopen, ?_⟩
            · rw [cons, htokens, List.cons_append]
            · exact (List.prefix_cons_inj token).2 hkept
      | cut last taken =>
          simp only [s, hspan, Span.left, ofText_nil] at hread ⊢
          exact Or.inr ⟨[], token, rfl, rfl, Phase.not_sealed_of_cut hspan hread, List.nil_prefix⟩
  | case3 offset cs hmore s error hread => exact Or.inl List.nil_prefix

namespace Stream

/-- If a text goes on, every token but the last is delivered as before and
in the same place. So is the last one if the text ended in a failure, or
if the token is sealed. -/
theorem delivered_append (text more : String) :
    let d := (ofSource (.ofString text)).delivered
    let longer := (ofSource (.ofString (text ++ more))).delivered
    d.tokens.dropLast <+: longer.tokens
      ∧ (d.last.isFatal = true ∨ (∃ token, d.tokens.getLast? = some token ∧ token.Sealed) →
        d.tokens <+: longer.tokens) := by
  dsimp only
  rw [delivered_ofString, delivered_ofString, String.toList_append]
  rcases Delivery.ofText_append 0 text.toList more.toList with
    hkept | ⟨front, token, htokens, hend, hopen, hkept⟩
  · exact ⟨(List.dropLast_prefix _).trans hkept, fun _ => hkept⟩
  · rw [htokens, List.dropLast_concat]
    refine ⟨hkept, ?_⟩
    rintro (hfatal | ⟨last, hlast, hsealed⟩)
    · rw [hend] at hfatal
      cases hfatal
    · obtain rfl : token = last := by simpa using hlast
      exact absurd hsealed hopen

-- a lone slash at the end of a text is not sealed
example : ¬ (ofSource (.ofString "a/")).delivered.tokens
    <+: (ofSource (.ofString ("a/" ++ "/"))).delivered.tokens := by
  decide +kernel

/-- A block comment at the end of a text is, also if a slash follows. -/
theorem delivered_append_slash :
    let d := (ofSource (.ofString "a/* b */")).delivered
    let longer := (ofSource (.ofString ("a/* b */" ++ "/c"))).delivered
    (∃ token, d.tokens.getLast? = some token ∧ token.Sealed) ∧ d.tokens <+: longer.tokens := by
  have hlast : ∃ token, (ofSource (.ofString "a/* b */")).delivered.tokens.getLast? = some token
      ∧ token.Sealed :=
    ⟨⟨.comment, "/* b */", 1⟩, by decide +kernel, .block rfl (by decide)⟩
  exact ⟨hlast, (delivered_append "a/* b */" "/c").2 (Or.inr hlast)⟩

end Stream

end LayeredLexer
