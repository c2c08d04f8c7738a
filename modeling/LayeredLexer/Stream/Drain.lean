/-
Draining a stream: taking its tokens and errors one after the other until
nothing is left. A recoverable error is one item among the others; a fatal
error is the last item.

Two bounds show that this ends. A stream has at most `tokensDue` tokens
still to deliver, because a token takes at least one character of the
source. It has at most `itemsDue` items to deliver before the end or a
fatal error: the tokens of its source, for each balance check one error
for each token that reaches it, and one for each delimiter that is open.
A drop lowers both bounds, a peek raises neither, and a peek that answers
with a recoverable error lowers the second.

What a tokenizer pays for its tokens is left open (`Tokenizer.Pays`), so
the bounds follow from any account of it, be it the size of its source
(`itemsAhead`) or the characters that are to be read.
-/
import LayeredLexer.Stream.Basic

namespace LayeredLexer

-- ==================================================== one lexeme's cost

/-- A run pays for the characters it adds to the lexeme. -/
theorem Phase.run_size_le (phase : Phase) (text : String) (source : CharSource) :
    (phase.run text source).source.size + (phase.run text source).text.length
      ≤ source.size + text.length := by
  fun_induction Phase.run phase text source with
  | case1 phase text source cause rest hnext =>
    have := source.size_next_le
    rw [hnext] at this
    simp only at *
    omega
  | case2 phase text source rest hnext =>
    have := source.size_next_le
    rw [hnext] at this
    simp only at *
    omega
  | case3 phase text source c rest hnext next hmove ih =>
    have := CharSource.size_lt_of_next hnext
    simp only [String.length_push] at ih
    omega
  | case4 phase text source c rest hnext kind hmove =>
    have := CharSource.size_lt_of_next hnext
    simp only [String.length_push]
    omega
  | case5 phase text source c rest hnext kind hmove =>
    have := CharSource.size_lt_of_next hnext
    have := rest.size_unread c
    simp only
    omega

/-- The first character is never refused. -/
theorem Phase.start_ne_stop (c : Char) (kind : Kind) : Phase.start c ≠ .stop kind := by
  unfold Phase.start
  repeat' split
  all_goals simp

/-- The phase of an unfinished lexeme is not the fresh one again. -/
theorem Phase.move_ne_fresh (phase : Phase) (c : Char) : phase.move c ≠ .extend .fresh := by
  cases phase <;> simp only [Phase.move, Phase.start] <;> repeat' split
  all_goals simp

/-- A run that leaves the fresh phase has read something. -/
theorem Phase.run_text_pos (phase : Phase) (text : String) (source : CharSource)
    (hread : phase ≠ .fresh → 0 < text.length) :
    match (phase.run text source).stop with
    | .complete _ => 0 < (phase.run text source).text.length
    | .ended last | .failed last _ => last ≠ .fresh → 0 < (phase.run text source).text.length := by
  fun_induction Phase.run phase text source with
  | case1 => simpa using hread
  | case2 => simpa using hread
  | case3 phase text source c rest hnext next hmove ih =>
    exact ih fun _ => by simp
  | case4 => simp
  | case5 phase text source c rest hnext kind hmove =>
    refine hread ?_
    rintro rfl
    exact Phase.start_ne_stop c kind hmove

-- ============================================================== bounds

/-- One for a token that is held. -/
def Front.weight : Front → Nat
  | .held _ => 1
  | _ => 0

/-- One for a token, none for its absence. -/
def heldWeight : Option Token → Nat
  | some _ => 1
  | none => 0

/-- A bound on the tokens that a tokenizer still has to deliver. -/
def Tokenizer.tokensAhead (tokenizer : Tokenizer) : Nat :=
  tokenizer.front.weight + tokenizer.source.size

namespace Tokenizer

/-- Reading a lexeme pays for the token it holds. -/
theorem tokensAhead_lex_le (t : Tokenizer) : t.lex.tokensAhead ≤ t.source.size := by
  have hsize := Phase.fresh.run_size_le "" t.source
  have hpos := Phase.fresh.run_text_pos "" t.source (by simp)
  unfold lex
  revert hsize hpos
  generalize Phase.fresh.run "" t.source = reach
  intro hsize hpos
  simp only [String.length_empty] at hsize
  dsimp only
  split
  · next kind hstop =>
    simp only [hstop] at hpos
    simp only [tokensAhead, hold, Front.weight]
    omega
  · simp only [tokensAhead, Front.weight]
    omega
  · next phase hne hstop =>
    simp only [hstop] at hpos
    split
    · have := hpos (by rintro rfl; simp_all)
      simp only [tokensAhead, hold, Front.weight]
      omega
    · simp only [tokensAhead, fail, Front.weight]
      omega
  · next phase cause hstop =>
    simp only [hstop] at hpos
    split
    · next kind hend =>
      have := hpos (by rintro rfl; simp [Phase.ending] at hend)
      simp only [tokensAhead, hold, Front.weight]
      omega
    · simp only [tokensAhead, fail, Front.weight]
      omega

/-- A look does not raise the bound. -/
theorem tokensAhead_peek_le (t : Tokenizer) : t.peek.2.1.tokensAhead ≤ t.tokensAhead := by
  unfold peek
  split
  · next hfront =>
    dsimp only
    unfold advance
    split
    · simp only [tokensAhead, Front.weight]
      omega
    · have := t.tokensAhead_lex_le
      simp only [tokensAhead] at *
      omega
  · exact Nat.le_refl _

/-- After a look that showed a token, taking it lowers the bound. -/
theorem tokensAhead_drop_lt (t : Tokenizer) {token : Token} (h : t.look = .ok (some token)) :
    t.drop.tokensAhead + 1 ≤ t.tokensAhead := by
  unfold look at h
  unfold drop
  split at h
  · next hfront =>
    simp only [tokensAhead, Front.weight, hfront]
    omega
  · simp at h
  · simp at h

/-- A look costs nothing of this, and taking a token that is shown costs
one. -/
structure Pays (w : Tokenizer → Nat) : Prop where
  peek : ∀ t, w t.peek.2.1 ≤ w t
  drop : ∀ t token, t.look = .ok (some token) → w t.drop + 1 ≤ w t

theorem pays_tokensAhead : Pays tokensAhead :=
  ⟨tokensAhead_peek_le, fun t _ => t.tokensAhead_drop_lt⟩

/-- A look answers what its front says. -/
theorem peek_eq_look (t : Tokenizer) : t.peek.1 = t.peek.2.1.look := by
  unfold peek
  split <;> rfl

end Tokenizer

namespace Stream

/-- A bound on the tokens that a stream still has to deliver, if a tokenizer
has at most `w` tokens to deliver. -/
def tokensDue (w : Tokenizer → Nat) : Stream → Nat
  | .script s => s.items.length
  | .tokenizer t => w t
  | .lines count inner => heldWeight count.pending + inner.tokensDue w
  | .balance nesting inner => heldWeight nesting.pending + inner.tokensDue w
  | .buffer lookahead inner => lookahead.queue.length + inner.tokensDue w

/-- A bound on the tokens and recoverable errors that a stream still has
to deliver, if a tokenizer has at most `w` tokens to deliver. -/
def itemsDue (w : Tokenizer → Nat) : Stream → Nat
  | .script s => s.items.length
  | .tokenizer t => w t
  | .lines count inner => heldWeight count.pending + inner.itemsDue w
  | .balance nesting inner =>
    heldWeight nesting.pending + nesting.opened.length + inner.itemsDue w + inner.tokensDue w
  | .buffer lookahead inner => lookahead.queue.length + inner.itemsDue w

/-- That bound by the size of the source. -/
def itemsAhead (s : Stream) : Nat := s.itemsDue Tokenizer.tokensAhead

end Stream

/-- Receiving a token holds it and opens at most one delimiter, and none
if the token is at fault. -/
theorem Nesting.receive_bounds (nesting : Nesting) (token : Token) :
    (nesting.receive token).1.pending = some token
      ∧ (nesting.receive token).1.opened.length ≤ nesting.opened.length + 1
      ∧ ((nesting.receive token).2 ≠ none →
          (nesting.receive token).1.opened.length ≤ nesting.opened.length) := by
  unfold receive
  split
  · simp
  · unfold check
    repeat' split
    all_goals simp_all
    all_goals grind

namespace Stream

/-- A peek that shows a token shows it again, and changes nothing more. -/
theorem peek_peek {s : Stream} {token : Token} (h : s.peek.result = .ok (some token)) :
    s.peek.stream.peek = ⟨.ok (some token), s.peek.stream, []⟩ := by
  cases s with
  | script s =>
    simp only [peek, Script.peek] at h ⊢
    split at h <;> simp_all
  | tokenizer t =>
    simp only [peek] at h ⊢
    rw [t.peek_eq_look] at h
    generalize t.peek.2.1 = u at h ⊢
    unfold Tokenizer.peek
    unfold Tokenizer.look at h
    split at h <;> simp_all [Tokenizer.look]
  | lines count inner =>
    simp only [peek] at h ⊢
    split at h
    · simp_all [peek]
    · split at h <;> simp_all [peek, LineCount.receive]
  | balance nesting inner =>
    simp only [peek] at h ⊢
    split at h
    · simp_all [peek]
    · split at h
      · next shown next events hpeek =>
        have hheld := (nesting.receive_bounds shown).1
        unfold judge at h ⊢
        split at h <;> simp_all [peek]
      · unfold judge at h
        split at h <;> simp_all
      · simp_all
  | buffer lookahead inner =>
    simp only [peek] at h ⊢
    split at h
    · simp_all [peek]
    · split at h <;> simp_all [peek]

section Due

variable {w : Tokenizer → Nat} (pays : Tokenizer.Pays w)

include pays

/-- What a peek does to the two bounds, and what taking the token it shows
does to them. -/
theorem peek_due (s : Stream) :
    s.peek.stream.tokensDue w ≤ s.tokensDue w
      ∧ s.peek.stream.itemsDue w ≤ s.itemsDue w
      ∧ (∀ token, s.peek.result = .ok (some token) →
          s.peek.stream.drop.tokensDue w + 1 ≤ s.peek.stream.tokensDue w
            ∧ s.peek.stream.drop.itemsDue w + 1 ≤ s.peek.stream.itemsDue w)
      ∧ (∀ error, s.peek.result = .error error → error.isFatal = false →
          s.peek.stream.itemsDue w + 1 ≤ s.itemsDue w) := by
  induction s with
  | script s =>
    obtain ⟨items, taken, error⟩ := s
    match items with
    | [] => simp [peek, Script.peek, tokensDue, itemsDue]
    | .ok token :: rest => simp [peek, Script.peek, tokensDue, itemsDue, drop, Script.drop]
    | .error e :: rest => simp [peek, Script.peek, tokensDue, itemsDue]
  | tokenizer t =>
    have hle := pays.peek t
    simp only [peek, tokensDue, itemsDue, drop]
    rw [t.peek_eq_look]
    refine ⟨hle, hle, fun token h => ?_, fun error h hfatal => ?_⟩
    · have := pays.drop _ _ h
      exact ⟨this, this⟩
    · unfold Tokenizer.look at h
      split at h <;> simp at h
      subst h
      simp [LexError.isFatal] at hfatal
  | lines count inner ih =>
    simp only [peek]
    split
    · next token hheld =>
      simp only [tokensDue, itemsDue, drop_lines, hheld, heldWeight]
      refine ⟨by omega, by omega, fun _ _ => ⟨by omega, by omega⟩, by simp⟩
    · next hheld =>
      obtain ⟨htokens, hitems, hdrop, herror⟩ := ih
      split
      · next token next events hpeek =>
        simp only [hpeek] at htokens hitems hdrop
        have := hdrop token rfl
        simp only [tokensDue, itemsDue, drop_lines, hheld, heldWeight, LineCount.receive]
        refine ⟨by omega, by omega, fun _ _ => ⟨by omega, by omega⟩, by simp⟩
      · next result next events hshown hpeek =>
        simp only [hpeek] at htokens hitems hdrop herror
        simp only [tokensDue, itemsDue, hheld, heldWeight]
        refine ⟨by omega, by omega, fun token h => ?_, fun error h hfatal => ?_⟩
        · exact (hshown token h).elim
        · have := herror error h hfatal
          omega
  | balance nesting inner ih =>
    simp only [peek]
    split
    · next token hheld =>
      simp only [tokensDue, itemsDue, drop_balance, hheld, heldWeight]
      refine ⟨by omega, by omega, fun _ _ => ⟨by omega, by omega⟩, by simp⟩
    · next hheld =>
      obtain ⟨htokens, hitems, hdrop, herror⟩ := ih
      split
      · next token next events hpeek =>
        simp only [hpeek] at htokens hitems hdrop
        have hdrop := hdrop token rfl
        obtain ⟨hpending, hopened, hfault⟩ := nesting.receive_bounds token
        unfold judge
        split
        · next verdict after hverdict =>
          simp only [hverdict] at hpending hopened
          simp only [tokensDue, itemsDue, drop_balance, hheld, heldWeight, hpending]
          refine ⟨by omega, by omega, fun _ _ => ⟨by omega, by omega⟩, by simp⟩
        · next verdict after fault hverdict =>
          simp only [hverdict] at hpending hopened hfault
          have hfault := hfault (by simp)
          simp only [tokensDue, itemsDue, hheld, heldWeight, hpending]
          refine ⟨by omega, by omega, by simp, fun _ _ _ => by omega⟩
      · next next events hpeek =>
        simp only [hpeek] at htokens hitems
        unfold judge Nesting.close
        split
        · next verdict after hverdict =>
          split at hverdict <;> simp at hverdict
          subst hverdict
          simp only [tokensDue, itemsDue, hheld, heldWeight]
          refine ⟨by omega, by omega, by simp, by simp⟩
        · next verdict after fault hverdict =>
          split at hverdict <;> simp at hverdict
          next hopened =>
          obtain ⟨rfl, rfl⟩ := hverdict
          simp only [tokensDue, itemsDue, hheld, heldWeight, hopened, List.length_cons]
          refine ⟨by omega, by omega, by simp, fun _ _ _ => by omega⟩
      · next error next events hpeek =>
        simp only [hpeek] at htokens hitems herror
        simp only [tokensDue, itemsDue, hheld, heldWeight]
        refine ⟨by omega, by omega, by simp, fun error' h hfatal => ?_⟩
        simp only [Except.error.injEq] at h
        have := herror error rfl (h ▸ hfatal)
        omega
  | buffer lookahead inner ih =>
    simp only [peek]
    split
    · next token rest hqueue =>
      simp only [tokensDue, itemsDue, drop_buffer _ _ _ _ hqueue, hqueue,
        List.length_cons]
      refine ⟨by omega, by omega, fun _ _ => ⟨by omega, by omega⟩, by simp⟩
    · next hqueue =>
      obtain ⟨htokens, hitems, hdrop, herror⟩ := ih
      split
      · next token next events hpeek =>
        simp only [hpeek] at htokens hitems hdrop
        have := hdrop token rfl
        rw [drop_buffer _ token [] _ rfl]
        simp only [tokensDue, itemsDue, hqueue, List.length_cons, List.length_nil]
        refine ⟨by omega, by omega, fun _ _ => ⟨by omega, by omega⟩, by simp⟩
      · next result next events hshown hpeek =>
        simp only [hpeek] at htokens hitems hdrop herror
        simp only [tokensDue, itemsDue, hqueue, List.length_nil]
        refine ⟨by omega, by omega, fun token h => ?_, fun error h hfatal => ?_⟩
        · exact (hshown token h).elim
        · have := herror error h hfatal
          omega

/-- A token that is consumed lowers the bound on items. -/
theorem itemsDue_consume_lt {s next : Stream} {token : Token} {events : List Log.Event}
    (h : s.consume = ⟨.ok token, next, events⟩) : next.itemsDue w < s.itemsDue w := by
  obtain ⟨-, hitems, hdrop, -⟩ := s.peek_due pays
  rw [consume_eq_takeNext, takeNext] at h
  split at h
  · next shown after logged hpeek =>
    simp only [hpeek] at hitems hdrop
    have := (hdrop shown rfl).2
    simp only [Answer.mk.injEq] at h
    obtain ⟨-, rfl, -⟩ := h
    omega
  · simp at h
  · simp at h

/-- So does a recoverable error, unless it is the end of the input. -/
theorem itemsDue_consume_error_lt {s next : Stream} {error : LexError}
    {events : List Log.Event} (h : s.consume = ⟨.error error, next, events⟩)
    (hfatal : error.isFatal = false) (hend : error ≠ .endOfInput) :
    next.itemsDue w < s.itemsDue w := by
  obtain ⟨-, -, -, herror⟩ := s.peek_due pays
  rw [consume_eq_takeNext, takeNext] at h
  split at h
  · simp at h
  · simp only [Answer.mk.injEq, Except.error.injEq] at h
    exact absurd h.1.symm hend
  · next e after logged hpeek =>
    simp only [Answer.mk.injEq, Except.error.injEq] at h
    obtain ⟨rfl, rfl, -⟩ := h
    simp only [hpeek] at herror
    have := herror e rfl hfatal
    omega

end Due

theorem itemsAhead_consume_lt {s next : Stream} {token : Token} {events : List Log.Event}
    (h : s.consume = ⟨.ok token, next, events⟩) : next.itemsAhead < s.itemsAhead :=
  itemsDue_consume_lt Tokenizer.pays_tokensAhead h

theorem itemsAhead_consume_error_lt {s next : Stream} {error : LexError}
    {events : List Log.Event} (h : s.consume = ⟨.error error, next, events⟩)
    (hfatal : error.isFatal = false) (hend : error ≠ .endOfInput) :
    next.itemsAhead < s.itemsAhead :=
  itemsDue_consume_error_lt Tokenizer.pays_tokensAhead h hfatal hend

end Stream

-- ============================================================= draining

/-- A stream that is drained, and whether that is over. -/
structure Drain where
  stream : Stream
  finished : Bool := false

/-- An item of a drained stream. -/
abbrev Item := Except LexError Token

namespace Drain

/-- The next item, none when the stream is drained. A fatal error ends the
draining after it. -/
def next (drain : Drain) : Option Item × Drain × List Log.Event :=
  if drain.finished then (none, drain, [])
  else
    match drain.stream.hasMore with
    | ⟨.ok true, after, events⟩ =>
      let answer := after.consume
      (some answer.result, ⟨answer.stream, false⟩, events ++ answer.events)
    | ⟨.ok false, after, events⟩ => (none, ⟨after, true⟩, events)
    | ⟨.error error, after, events⟩ => (some (.error error), ⟨after, error.isFatal⟩, events)

/-- A bound on the items still to come, if a tokenizer has at most `w` tokens
to deliver. -/
def itemsDue (w : Tokenizer → Nat) (drain : Drain) : Nat :=
  if drain.finished then 0 else drain.stream.itemsDue w + 1

/-- That bound by the size of the source. -/
def itemsAhead (drain : Drain) : Nat := drain.itemsDue Tokenizer.tokensAhead

/-- Each item lowers the bound. -/
theorem itemsDue_lt_of_next {w : Tokenizer → Nat} (pays : Tokenizer.Pays w) {drain rest : Drain}
    {item : Item} {events : List Log.Event} (h : drain.next = (some item, rest, events)) :
    rest.itemsDue w < drain.itemsDue w := by
  obtain ⟨stream, finished⟩ := drain
  obtain ⟨-, hitems, hdrop, herror⟩ := stream.peek_due pays
  cases finished with
  | true => simp [next] at h
  | false =>
    simp only [next, Bool.false_eq_true, if_false, Stream.hasMore] at h
    cases hresult : stream.peek.result with
    | error error =>
      simp only [hresult, Except.map, Prod.mk.injEq] at h
      obtain ⟨-, rfl, -⟩ := h
      cases hfatal : error.isFatal with
      | true => simp [itemsDue]
      | false =>
        have := herror error hresult hfatal
        simp only [itemsDue, Bool.false_eq_true, if_false]
        omega
    | ok shown =>
      cases shown with
      | none => simp [hresult, Except.map] at h
      | some token =>
        have hagain := Stream.peek_peek hresult
        have := (hdrop token hresult).2
        simp only [hresult, Except.map, Option.isSome_some, Stream.consume_eq_takeNext,
          Stream.takeNext, hagain, Prod.mk.injEq] at h
        obtain ⟨-, rfl, -⟩ := h
        simp only [itemsDue, Bool.false_eq_true, if_false]
        omega

theorem itemsAhead_lt_of_next {drain rest : Drain} {item : Item} {events : List Log.Event}
    (h : drain.next = (some item, rest, events)) : rest.itemsAhead < drain.itemsAhead :=
  itemsDue_lt_of_next Tokenizer.pays_tokensAhead h

/-- Takes up to `count` items. The next item is not looked for. -/
def take (count : Nat) (drain : Drain) (items : Array Item := #[])
    (logged : Array Log.Event := #[]) : Array Item × Drain × Array Log.Event :=
  match count with
  | 0 => (items, drain, logged)
  | count + 1 =>
    match drain.next with
    | (some item, rest, events) => take count rest (items.push item) (logged ++ events)
    | (none, rest, events) => (items, rest, logged ++ events)

/-- Takes all items. -/
def all (drain : Drain) (items : Array Item := #[])
    (logged : Array Log.Event := #[]) : Array Item × Drain × Array Log.Event :=
  match _hnext : drain.next with
  | (some item, rest, events) => all rest (items.push item) (logged ++ events)
  | (none, rest, events) => (items, rest, logged ++ events)
termination_by drain.itemsAhead
decreasing_by exact itemsAhead_lt_of_next _hnext

end Drain

end LayeredLexer
