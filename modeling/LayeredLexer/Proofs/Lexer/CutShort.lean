/-
Sources that fail while they are lexed. What reads find is a list of
characters and then the end or a failure (`CharSource.Gives`), and nothing
else of a source matters to a tokenizer. Over a source that fails it
delivers the tokens of the characters before the failure, as if they were
the whole text, and only then the failure, at the offset that was reached.

# Where the failure is met

A failure is met behind a whole lexeme, or inside one. A word, a space, a
line comment and a lone slash are lexemes already when it is met, so the
token is held and the failure waits; a quote or a block comment is not,
and the failure takes the place of the one that the end of the text would
have been. `Ahead` makes one case of the first two: the tokenizer still
has these characters ahead, and then the failure, be it in the source or
put off already.
-/
import LayeredLexer.Proofs.Stream.Yields

namespace LayeredLexer

-- =============================================================== sources

namespace Supply

/-- A supply that has come to its end stays there. -/
theorem more_ended {supply next : Supply} (h : supply.more = (.ok [], next)) : next = .ended := by
  fun_induction more supply with
  | case1 =>
      cases h
      rfl
  | case2 => cases h
  | case3 => cases h
  | case4 =>
      cases h
      rfl
  | case5 => cases h
  | case6 => cases h
  | case7 => cases h
  | case8 d state byte bytes rest hread last hstep ih => exact ih h

end Supply

namespace CharSource

/-- Reads find these characters, one after the other, and then the end or
this failure. -/
def Gives (source : CharSource) : List Char → Option SourceError → Prop
  | c :: rest, failure => source.next.1 = .ok (some c) ∧ source.next.2.Gives rest failure
  | [], none => source.next.1 = .ok none
  | [], some cause => source.next.1 = .error cause

variable {source : CharSource} {cs : List Char} {failure : Option SourceError}

/-- A character that is given back is found again. -/
theorem Gives.unread (h : source.Gives cs failure) (c : Char) :
    (source.unread c).Gives (c :: cs) failure := ⟨rfl, h⟩

/-- The end is found again and again. -/
theorem Gives.ended (h : source.Gives [] none) : source.next.2.Gives [] none := by
  obtain ⟨ready, supply⟩ := source
  cases ready with
  | cons c rest => cases h
  | nil =>
      show (CharSource.next _).1 = .ok none
      unfold Gives at h
      unfold next at h ⊢
      dsimp only at h ⊢
      rcases hmore : supply.more with ⟨found, after⟩
      rw [hmore] at h
      match found with
      | .ok (c :: cs) => cases h
      | .ok [] =>
          obtain rfl := Supply.more_ended hmore
          simp [Supply.more]
      | .error cause => cases h

/-- A source gives what draining it finds. -/
theorem gives_drain (source : CharSource) : source.Gives source.drain.1.toList source.drain.2.1 := by
  -- the induction is for any text that has been drained before
  suffices key : ∀ text : String, ∃ cs, (source.drain text).1 = text ++ String.ofList cs
      ∧ source.Gives cs (source.drain text).2.1 by
    obtain ⟨cs, htext, hgives⟩ := key ""
    rw [htext]
    simpa using hgives
  intro text
  fun_induction drain source text with
  | case1 source text c rest hnext ih =>
      obtain ⟨cs, htext, hgives⟩ := ih
      refine ⟨c :: cs, ?_, ?_, ?_⟩
      · rw [htext, ← String.toList_inj]
        simp
      · rw [hnext]
      · rw [hnext]
        exact hgives
  | case2 source text rest hnext => exact ⟨[], by simp, congrArg Prod.fst hnext⟩
  | case3 source text cause rest hnext => exact ⟨[], by simp, congrArg Prod.fst hnext⟩

/-- A text gives its characters and then its end. -/
theorem gives_ofString (text : String) : (ofString text).Gives text.toList none := by
  unfold ofString
  induction text.toList with
  | nil => simp [Gives, next, Supply.more]
  | cons c cs ih => exact ⟨rfl, ih⟩

end CharSource

-- =============================================================== one run

/-- Why a run stopped that read all characters: the end, or a failure. -/
def Stop.behind (last : Phase) : Option SourceError → Stop
  | none => .ended last
  | some cause => .failed last cause

/-- Where a run comes to over characters that are followed by the end or a
failure. -/
def Span.reach (text : String) (failure : Option SourceError) (source : CharSource) : Span → Reach
  | .whole kind taken _ => ⟨text ++ String.ofList taken, .complete kind, source⟩
  | .cut last taken => ⟨text ++ String.ofList taken, .behind last failure, source⟩

/-- Whether the lexeme came to its end before the characters did. -/
def Span.isWhole : Span → Bool
  | whole .. => true
  | cut .. => false

theorem Span.reach_cons (text : String) (failure : Option SourceError) (source : CharSource)
    (c : Char) (s : Span) :
    (s.cons c).reach text failure source = s.reach (text.push c) failure source := by
  have htext (taken : List Char) :
      text ++ String.ofList (c :: taken) = text.push c ++ String.ofList taken := by
    rw [← String.toList_inj]
    simp
  cases s with
  | whole kind taken left => simp only [Span.cons, reach, htext]
  | cut last taken => simp only [Span.cons, reach, htext]

@[simp] theorem Span.isWhole_cons (c : Char) (s : Span) : (s.cons c).isWhole = s.isWhole := by
  cases s <;> rfl

namespace Phase

variable {source rest : CharSource}

/-- A run asks for one character at a time. -/
theorem run_char (phase : Phase) (text : String) {c : Char}
    (h : source.next = (.ok (some c), rest)) :
    phase.run text source = match phase.move c with
      | .extend next => next.run (text.push c) rest
      | .close kind => ⟨text.push c, .complete kind, rest⟩
      | .stop kind => ⟨text, .complete kind, rest.unread c⟩ := by
  rw [run]
  split
  next hfound => rw [h] at hfound; cases hfound
  next hfound => rw [h] at hfound; cases hfound
  next found after hfound =>
    rw [h] at hfound
    cases hfound
    cases phase.move c <;> rfl

theorem run_end (phase : Phase) (text : String) (h : source.next = (.ok none, rest)) :
    phase.run text source = ⟨text, .ended phase, rest⟩ := by
  rw [run]
  split <;> simp_all

theorem run_failure (phase : Phase) (text : String) {cause : SourceError}
    (h : source.next = (.error cause, rest)) :
    phase.run text source = ⟨text, .failed phase cause, rest⟩ := by
  rw [run]
  split <;> simp_all

/-- A run over any source reads the characters that the source gives as
their span says. Unless it met the failure, the source behind it gives
what is left. -/
theorem run_gives {source : CharSource} {cs : List Char} {failure : Option SourceError}
    (h : source.Gives cs failure) (phase : Phase) (text : String) :
    ∃ rest, phase.run text source = (phase.span cs).reach text failure rest
      ∧ ((phase.span cs).isWhole = true ∨ failure = none →
        rest.Gives (phase.span cs).left failure) := by
  induction cs generalizing source phase text with
  | nil =>
      rcases hnext : source.next with ⟨found, rest⟩
      cases failure with
      | none =>
          have hend := h.ended
          unfold CharSource.Gives at h
          rw [hnext] at h hend
          subst h
          refine ⟨rest, ?_, fun _ => hend⟩
          rw [run_end phase text hnext, span_nil]
          simp [Span.reach, Stop.behind]
      | some cause =>
          unfold CharSource.Gives at h
          rw [hnext] at h
          subst h
          refine ⟨rest, ?_, fun hleft => ?_⟩
          · rw [run_failure phase text hnext, span_nil]
            simp [Span.reach, Stop.behind]
          · rcases hleft with hwhole | hnone
            · cases hwhole
            · cases hnone
  | cons c cs ih =>
      obtain ⟨hfound, hrest⟩ := h
      rcases hnext : source.next with ⟨found, rest⟩
      rw [hnext] at hfound hrest
      subst hfound
      rw [run_char phase text hnext]
      cases hmove : phase.move c with
      | extend next =>
          obtain ⟨last, hrun, hgives⟩ := ih hrest next (text.push c)
          rw [span_extend hmove]
          refine ⟨last, ?_, ?_⟩
          · rw [Span.reach_cons]
            exact hrun
          · rw [Span.isWhole_cons, Span.left_cons]
            exact hgives
      | close kind =>
          rw [span_close hmove]
          refine ⟨rest, ?_, fun _ => hrest⟩
          rw [Span.reach, String.push_eq_append]
          rfl
      | stop kind =>
          rw [span_stop hmove]
          refine ⟨rest.unread c, ?_, fun _ => hrest.unread c⟩
          simp [Span.reach]

end Phase

-- ============================================================= lex steps

namespace Tokenizer

/-- The characters that a tokenizer has not lexed yet, and what is behind
them. A failure that was put off is behind no more characters. -/
def Ahead (t : Tokenizer) (cs : List Char) (failure : Option SourceError) : Prop :=
  match t.deferred with
  | none => t.source.Gives cs failure
  | some cause => cs = [] ∧ failure = some cause

/-- What is in front when no characters are ahead. -/
def behind (offset : Nat) : Option SourceError → Front
  | none => .ended
  | some cause => .failed (.source cause offset)

variable {t : Tokenizer} {cs : List Char} {failure : Option SourceError}

/-- With no characters ahead a tokenizer finds the end, or the failure. -/
theorem front_advance_nil (h : t.Ahead [] failure) :
    t.advance.front = behind t.offset failure := by
  unfold Ahead at h
  unfold advance
  cases hdeferred : t.deferred with
  | some cause =>
      rw [hdeferred] at h
      obtain ⟨-, rfl⟩ := h
      rfl
  | none =>
      rw [hdeferred] at h
      obtain ⟨rest, hrun, -⟩ := Phase.run_gives h .fresh ""
      unfold lex
      rw [hrun, Phase.span_nil]
      cases failure <;> rfl

variable (h : t.Ahead cs failure) (hcs : cs ≠ [])

include h hcs

/-- With characters ahead it lexes, and the run reads them as their span
says. -/
theorem advance_run :
    t.advance = t.lex
      ∧ ∃ rest, Phase.fresh.run "" t.source = (Phase.fresh.span cs).reach "" failure rest
        ∧ ((Phase.fresh.span cs).isWhole = true ∨ failure = none →
          rest.Gives (Phase.fresh.span cs).left failure) := by
  unfold Ahead at h
  unfold advance
  cases hdeferred : t.deferred with
  | some cause =>
      rw [hdeferred] at h
      exact absurd h.1 hcs
  | none =>
      rw [hdeferred] at h
      exact ⟨rfl, Phase.run_gives h .fresh ""⟩

/-- A token that the characters begin with is held, whole or cut short by
the failure. -/
theorem advance_token {token : Token}
    (hread : (Phase.fresh.span cs).lexeme.answer t.offset = .ok token) :
    t.advance.front = .held token
      ∧ t.advance.offset = t.offset + (Phase.fresh.span cs).taken.length
      ∧ t.advance.Ahead (Phase.fresh.span cs).left failure := by
  obtain ⟨hadvance, rest, hrun, hgives⟩ := advance_run h hcs
  rw [hadvance, lex, hrun]
  cases hspan : Phase.fresh.span cs with
  | whole kind taken left =>
      rw [hspan] at hread hgives
      cases hread
      refine ⟨?_, ?_, ?_⟩
      · simp [Span.reach, hold]
      · simp [Span.reach, hold, Span.taken]
      · exact hgives (.inl rfl)
  | cut last taken =>
      rw [hspan] at hread hgives
      cases failure with
      | none =>
          have hend := hgives (.inr rfl)
          cases last <;> cases hread
          all_goals
            refine ⟨?_, ?_, hend⟩
            · simp [Span.reach, Stop.behind, Phase.ending, hold]
            · simp [Span.reach, Stop.behind, Phase.ending, hold, Span.taken]
      | some cause =>
          cases last <;> cases hread
          all_goals
            refine ⟨?_, ?_, rfl, rfl⟩
            · simp [Span.reach, Stop.behind, Phase.ending, hold]
            · simp [Span.reach, Stop.behind, Phase.ending, hold, Span.taken]

/-- A construct that stays open fails, by itself or by the failure that
is met in it. -/
theorem advance_open {error : LexError}
    (hread : (Phase.fresh.span cs).lexeme.answer t.offset = .error error) :
    t.advance.look = .error (match failure with
      | none => error
      | some cause => .failure (.source cause (t.offset + cs.length))) := by
  obtain ⟨hadvance, rest, hrun, -⟩ := advance_run h hcs
  have hsplit := Phase.fresh.taken_append_left cs
  rw [hadvance, lex, hrun]
  cases hspan : Phase.fresh.span cs with
  | whole kind taken left =>
      rw [hspan] at hread
      cases hread
  | cut last taken =>
      rw [hspan] at hread hsplit
      obtain rfl : taken = cs := by simpa [Span.taken, Span.left] using hsplit
      have hfresh : last ≠ .fresh := by
        rintro rfl
        exact hcs (Phase.eq_nil_of_span_cut_fresh hspan).2
      cases failure with
      | none =>
          cases last <;> cases hread
          · exact absurd rfl hfresh
          all_goals
            simp [Span.reach, Stop.behind, Phase.ending, fail, unterminated, look]
      | some cause =>
          cases last <;> cases hread
          all_goals
            simp [Span.reach, Stop.behind, Phase.ending, fail, look]

end Tokenizer

-- ============================================================ deliveries

/-- A delivery that a failure of the source ends, when `stop` characters
have been read: the failure comes in the place of what came last. -/
def Delivery.cutBy (stop : Nat) (d : Delivery) : Option SourceError → Delivery
  | none => d
  | some cause => ⟨d.tokens, .failure (.source cause stop)⟩

theorem Delivery.cutBy_cons (stop : Nat) (d : Delivery) (token : Token)
    (failure : Option SourceError) :
    (d.cons token).cutBy stop failure = (d.cutBy stop failure).cons token := by
  cases failure <;> rfl

namespace Stream

variable {t : Tokenizer} {cs : List Char} {failure : Option SourceError}

/-- A look at a token that is not lexed yet is a lex step. -/
theorem peek_unread (hfront : t.front = .unread) :
    (tokenizer t).peek.result = t.advance.look
      ∧ (tokenizer t).peek.stream = tokenizer t.advance := by
  have hpeek : t.peek = (t.advance.look, t.advance, t.advance.report) := by
    rw [Tokenizer.peek, hfront]
  rw [peek, hpeek]
  exact ⟨rfl, rfl⟩

/-- A tokenizer delivers the tokens of the characters ahead, and then the
failure behind them, if there is one. -/
theorem delivered_ahead (h : t.Ahead cs failure) (hfront : t.front = .unread) :
    (tokenizer t).delivered
      = (Delivery.ofText t.offset cs).cutBy (t.offset + cs.length) failure := by
  -- the induction is on the characters ahead
  induction hn : cs.length using Nat.strong_induction_on generalizing t cs with
  | _ n ih =>
      obtain ⟨hresult, hstream⟩ := peek_unread hfront
      rw [Delivery.ofText]
      split
      next hnil =>
        subst hnil
        have hfound := Tokenizer.front_advance_nil h
        rw [Tokenizer.look, hfound] at hresult
        subst hn
        cases failure with
        | none => exact delivered_error (congrArg Answer.result (consume_of_peek_end hresult))
        | some cause => exact delivered_error (congrArg Answer.result (consume_of_peek_error hresult))
      next hmore =>
        dsimp only
        split
        next token hread =>
          obtain ⟨hheld, hoffset, hleft⟩ := Tokenizer.advance_token h hmore hread
          rw [Tokenizer.look, hheld] at hresult
          have hdrop : t.advance.drop = { t.advance with front := .unread } := by
            rw [Tokenizer.drop, hheld]
          have hsplit := congrArg List.length (Phase.fresh.taken_append_left cs)
          rw [List.length_append] at hsplit
          have hless : (Phase.fresh.span cs).left.length < n := hn ▸ Phase.length_left_lt hmore
          rw [delivered_ok (congrArg Answer.result (consume_of_peek_token hresult)),
            consume_of_peek_token hresult, hstream, drop, hdrop, Delivery.cutBy_cons,
            ih _ hless (t := { t.advance with front := .unread }) hleft rfl rfl]
          show Delivery.cons token ((Delivery.ofText t.advance.offset _).cutBy
            (t.advance.offset + _) failure) = _
          rw [hoffset, Nat.add_assoc, hsplit, hn]
        next error hread =>
          rw [Tokenizer.advance_open h hmore hread] at hresult
          rw [delivered_error (congrArg Answer.result (consume_of_peek_error hresult)), hn]
          cases failure <;> rfl

/-- A tokenizer over any source delivers the tokens of the text that the
source gives before its end or its first failure. At the end it ends as
the tokenizer over that text does; a failure it raises at the offset where
the text ends, whatever the text itself would have ended in. -/
theorem delivered_before_failure (source : CharSource) :
    let text := source.drain.1
    let whole := (ofSource (.ofString text)).delivered
    let delivery := (ofSource source).delivered
    delivery.tokens = whole.tokens
      ∧ delivery.last = match source.drain.2.1 with
        | none => whole.last
        | some cause => .failure (.source cause text.length) := by
  have hahead : (Tokenizer.ofSource source).Ahead source.drain.1.toList source.drain.2.1 :=
    source.gives_drain
  have hwhole : (Tokenizer.ofSource (.ofString source.drain.1)).Ahead source.drain.1.toList none :=
    CharSource.gives_ofString source.drain.1
  have hdelivered := delivered_ahead hahead rfl
  have htext := delivered_ahead hwhole rfl
  have hstop : (Tokenizer.ofSource source).offset + source.drain.1.toList.length
      = source.drain.1.length := by
    rw [String.length_toList]
    exact Nat.zero_add _
  rw [hstop] at hdelivered
  dsimp only
  rw [ofSource, hdelivered, ofSource, htext]
  cases source.drain.2.1 with
  | none => exact ⟨rfl, rfl⟩
  | some cause => exact ⟨rfl, rfl⟩

/-- So a source delivers what its text does, and in place of what comes
last the failure that it ends in. -/
theorem delivered_eq_cutBy (source : CharSource) :
    (ofSource source).delivered
      = (Delivery.ofText 0 source.drain.1.toList).cutBy source.drain.1.toList.length
          source.drain.2.1 := by
  have hahead : (Tokenizer.ofSource source).Ahead source.drain.1.toList source.drain.2.1 :=
    source.gives_drain
  have hdelivered := delivered_ahead hahead rfl
  rwa [show (Tokenizer.ofSource source).offset = 0 from rfl, Nat.zero_add] at hdelivered

theorem tokens_delivered (source : CharSource) :
    (ofSource source).delivered.tokens = (Delivery.ofText 0 source.drain.1.toList).tokens := by
  rw [delivered_eq_cutBy]
  cases source.drain.2.1 <;> rfl

/-- It comes to the end or to a failure. -/
theorem last_delivered (source : CharSource) :
    (ofSource source).delivered.last = .endOfInput
      ∨ (ofSource source).delivered.last.isFatal = true := by
  obtain ⟨stop, -, -, -, hlast⟩ := Delivery.ofText_tiles 0 source.drain.1.toList
  rw [delivered_eq_cutBy]
  cases source.drain.2.1 with
  | some cause => exact .inr rfl
  | none =>
      rw [Delivery.cutBy]
      rcases hlast with ⟨hend, -⟩ | ⟨-, hquote | hcomment⟩
      · exact .inl hend
      · rw [hquote]
        exact .inr rfl
      · rw [hcomment]
        exact .inr rfl

end Stream

end LayeredLexer
