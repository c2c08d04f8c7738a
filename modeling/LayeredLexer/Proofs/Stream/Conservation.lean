/-
No layer loses, repeats or reorders text. A reading is a stack of layers
over a tokenizer with the tokens that were taken from it and not given
back. Whatever is done with the stack, those tokens, then the tokens that
the layers and the tokenizer hold, from the outermost layer inward, and
then the characters that the source has not delivered, are the text.

# What moves

A look moves nothing across the top of a stack: what is pulled from one
layer is held by the next, and a lex step turns characters into the token
that they are (`ahead_peek`). Taking a token moves it from the front of
what is ahead to the end of what was taken (`ahead_take`). The token that
a buffer takes back is the one that was taken last (`givable?`), so it
goes back where it came from.

# Failures

A failure of the tokenizer keeps the characters of the construct that is
never closed, so the text is whole only while there is none. It stays
once it is met, so if there is none at the end there never was one.
-/
import LayeredLexer.Proofs.Stream.Layers

namespace LayeredLexer

-- =========================================================== texts of tokens

/-- The texts of tokens, put together. -/
def Token.texts (tokens : List Token) : String := String.join (tokens.map (·.text))

namespace Token

@[simp] theorem texts_nil : texts [] = "" := rfl

@[simp] theorem texts_cons (token : Token) (tokens : List Token) :
    texts (token :: tokens) = token.text ++ texts tokens := by
  simp [texts]

@[simp] theorem texts_append (tokens more : List Token) :
    texts (tokens ++ more) = texts tokens ++ texts more := by
  simp [texts]

end Token

-- ============================================================ what is ahead

/-- Draining a source that has all its characters ready finds them. -/
theorem CharSource.drain_ready (cs : List Char) (text : String) :
    (drain ⟨cs, .ended⟩ text).1 = text ++ String.ofList cs := by
  induction cs generalizing text with
  | nil =>
      rw [drain]
      split <;> simp_all [next, Supply.more]
  | cons c rest ih =>
      have hnext : next ⟨c :: rest, .ended⟩ = (.ok (some c), ⟨rest, .ended⟩) := rfl
      rw [drain]
      split
      next found after hfound =>
        rw [hnext] at hfound
        cases hfound
        rw [ih, ← String.toList_inj]
        simp
      next hfound => rw [hnext] at hfound; cases hfound
      next hfound => rw [hnext] at hfound; cases hfound

/-- The token that a tokenizer holds. -/
def Front.tokens : Front → List Token
  | .held token => [token]
  | _ => []

namespace Stream

open Token (texts)

/-- The tokens that a stack holds, from the outermost layer inward, and
last the one of the tokenizer. -/
def held : Stream → List Token
  | .script _ => []
  | .tokenizer t => t.front.tokens
  | .lines count inner => count.pending.toList ++ inner.held
  | .balance nesting inner => nesting.pending.toList ++ inner.held
  | .buffer lookahead inner => lookahead.queue ++ inner.held

/-- The characters that the source at the bottom has not delivered. -/
def undelivered : Stream → String
  | .script _ => ""
  | .tokenizer t => t.source.drain.1
  | .lines _ inner | .balance _ inner | .buffer _ inner => inner.undelivered

/-- The failure of the tokenizer at the bottom. -/
def failure? : Stream → Option LexFailure
  | .script _ => none
  | .tokenizer t => t.failure?
  | .lines _ inner | .balance _ inner | .buffer _ inner => inner.failure?

/-- The text that is ahead of a reader of the stack. -/
def ahead (s : Stream) : String := texts s.held ++ s.undelivered

variable {s inner : Stream} {text : List Char}

theorem held_layer (h : s.inner? = some inner) : s.held = s.own ++ inner.held := by
  cases s <;> cases h <;> rfl

/-- What is ahead of a layer is what it holds, and then what is ahead of
the stream below it. -/
theorem ahead_layer (h : s.inner? = some inner) : s.ahead = texts s.own ++ inner.ahead := by
  unfold ahead
  cases s <;> cases h <;> simp [held, own, undelivered, String.append_assoc]

theorem ahead_buffer (lookahead : Lookahead) (inner : Stream) :
    (buffer lookahead inner).ahead = texts lookahead.queue ++ inner.ahead := ahead_layer rfl

theorem failure?_layer (h : s.inner? = some inner) : s.failure? = inner.failure? := by
  cases s <;> cases h <;> rfl

-- ================================================================ failures

theorem failure?_eq_some {failure : LexFailure} :
    s.failure? = some failure ↔ s.Bottom (·.failure? = some failure) := by
  induction s using stackInduction with
  | script s => simp [failure?, Bottom]
  | tokenizer t => exact Iff.rfl
  | layer s inner hinner ih => rw [failure?_layer hinner, bottom_layer hinner, ih]

end Stream

namespace Tokenizer

theorem failure?_eq_some {t : Tokenizer} {failure : LexFailure} :
    t.failure? = some failure ↔ t.front = .failed failure := by
  unfold failure?
  split
  next found hfront =>
    rw [hfront, Option.some.injEq, Front.failed.injEq]
  next hnone =>
    refine ⟨nofun, fun hfront => ?_⟩
    exact absurd hfront (hnone failure)

/-- A failure that a tokenizer has met stays. -/
theorem keeps_failure (failure : LexFailure) : Keeps (·.failure? = some failure) where
  peek t h := by
    rw [peek, failure?_eq_some.1 h]
    exact h
  drop t h := by
    rw [drop, failure?_eq_some.1 h]
    exact h

/-- It stays over its text. -/
theorem keeps_over (text : List Char) : Keeps (·.Over text) :=
  ⟨fun _ h => over_peek h, fun _ h => over_drop h⟩

end Tokenizer

namespace Stream

open Token (texts)

variable {s inner : Stream} {text : List Char}

/-- If there is no failure behind something that keeps failures, there was
none before. -/
theorem failure?_before {next : Stream}
    (hkeeps : ∀ failure, s.Bottom (·.failure? = some failure) →
      next.Bottom (·.failure? = some failure))
    (h : next.failure? = none) : s.failure? = none := by
  cases hfailure : s.failure? with
  | none => rfl
  | some failure =>
      have hkept := failure?_eq_some.2 (hkeeps failure (failure?_eq_some.1 hfailure))
      cases h.symm.trans hkept

theorem failure?_peek (h : s.peek.stream.failure? = none) : s.failure? = none :=
  failure?_before (fun failure hmet => hmet.peek (Tokenizer.keeps_failure failure)) h

/-- Taking a token meets none. -/
theorem failure?_drop (s : Stream) : s.drop.failure? = s.failure? := by
  cases s with
  | tokenizer t =>
      show t.drop.failure? = t.failure?
      cases hfront : t.front <;> simp [Tokenizer.drop, Tokenizer.failure?, hfront]
  | buffer lookahead inner =>
      cases hqueue : lookahead.queue <;> simp [drop, hqueue, failure?]
  | _ => rfl

-- ======================================================= looks and takes

/-- A lex step that meets no failure turns the front of the characters
into a token. -/
theorem ahead_lex {t : Tokenizer} (hover : t.Over text) (hfront : t.front = .unread)
    (hfine : t.lex.failure? = none) : (tokenizer t.lex).ahead = (tokenizer t).ahead := by
  have hsource : (tokenizer t).ahead = String.ofList (text.drop t.offset) := by
    simp [ahead, held, undelivered, hfront, Front.tokens, hover.source, CharSource.drain_ready]
  by_cases hrest : text.drop t.offset = []
  · rw [hsource, Tokenizer.lex_over_end hover hrest]
    simp [ahead, held, undelivered, Front.tokens, hover.source, CharSource.drain_ready]
  · have hsplit := Phase.fresh.taken_append_left (text.drop t.offset)
    rw [Tokenizer.lex_over hover hrest] at hfine ⊢
    rw [hsource]
    generalize Phase.fresh.span (text.drop t.offset) = span at hfine hsplit ⊢
    cases hlexeme : span.lexeme with
    | token kind chars =>
        have hread : span.lexeme.answer t.offset = .ok ⟨kind, String.ofList chars, t.offset⟩ := by
          rw [hlexeme]
          rfl
        have hchars := (Span.eq_of_answer_ok hread).2
        rw [← hsplit, String.ofList_append, ← hchars]
        simp [ahead, held, undelivered, Tokenizer.past, hlexeme, Lexeme.front, Front.tokens,
          CharSource.drain_ready]
    | openComment | openQuote =>
        simp [Tokenizer.past, hlexeme, Lexeme.front, Tokenizer.failure?] at hfine

/-- The token that a look shows is held in front of the others, and taking
it leaves those. -/
theorem held_take {Q : Tokenizer → Prop} (hbottom : s.Bottom Q) {token : Token}
    (h : s.peek.result = .ok (some token)) :
    s.peek.stream.held = token :: s.peek.stream.drop.held := by
  induction s using stackInduction with
  | script s => exact hbottom.elim
  | tokenizer t =>
      have hlook : t.peek.2.1.look = .ok (some token) := t.peek_eq_look.symm.trans h
      have hfront : t.peek.2.1.front = .held token := by
        unfold Tokenizer.look at hlook
        split at hlook <;> simp_all
      show (tokenizer t.peek.2.1).held = token :: (tokenizer t.peek.2.1.drop).held
      simp [held, Tokenizer.drop, hfront, Front.tokens]
  | layer s inner hinner ih =>
      obtain ⟨rest, below, hbelow, hown⟩ := own_peek hinner h
      obtain ⟨hleft, hrest⟩ := drop_layer hbelow hown
      rw [held_layer hbelow, held_layer hleft, hown, hrest, List.cons_append]

/-- Taking a token takes no characters. -/
theorem undelivered_drop (s : Stream) : s.drop.undelivered = s.undelivered := by
  cases s with
  | tokenizer t =>
      show t.drop.source.drain.1 = t.source.drain.1
      unfold Tokenizer.drop
      split <;> rfl
  | buffer lookahead inner =>
      cases hqueue : lookahead.queue <;> simp [drop, hqueue, undelivered]
  | _ => rfl

/-- So it leaves the text behind its token. -/
theorem ahead_take {Q : Tokenizer → Prop} (hbottom : s.Bottom Q) {token : Token}
    (h : s.peek.result = .ok (some token)) :
    s.peek.stream.ahead = token.text ++ s.peek.stream.drop.ahead := by
  rw [ahead, held_take hbottom h, Token.texts_cons, String.append_assoc, ahead, undelivered_drop]

/-- A look changes nothing ahead, unless it meets a failure. -/
theorem ahead_peek (hover : s.Bottom (·.Over text)) (hfine : s.peek.stream.failure? = none) :
    s.peek.stream.ahead = s.ahead := by
  induction s using stackInduction with
  | script s => exact hover.elim
  | tokenizer t =>
      by_cases hfront : t.front = .unread
      · have hlex : (tokenizer t).peek.stream = tokenizer t.lex :=
          congrArg tokenizer (Tokenizer.peek_over hover hfront)
        rw [hlex] at hfine ⊢
        exact ahead_lex hover hfront hfine
      · have hsame : t.peek.2.1 = t := by
          unfold Tokenizer.peek
          split
          next hunread => exact absurd hunread hfront
          next => rfl
        exact congrArg (fun u => (tokenizer u).ahead) hsame
  | layer s inner hinner ih =>
      have hinnerOver := (bottom_layer hinner).1 hover
      cases looks_layer hinner with
      | holds own result stream => rw [stream]
      | pulls own below pulled rest result =>
          rw [failure?_layer rest] at hfine
          have hsame := ih hinnerOver ((failure?_drop _).symm.trans hfine)
          rw [ahead_layer rest, ahead_layer hinner, pulled, own, ← hsame,
            ahead_take hinnerOver below]
          simp
      | passes own below pulled rest result =>
          rw [failure?_layer rest] at hfine
          rw [ahead_layer rest, ahead_layer hinner, pulled, own, ih hinnerOver hfine]

-- ============================================================== operations

/-- The token that the outermost layer takes back. -/
def givable? : Stream → Option Token
  | .buffer lookahead _ => lookahead.last
  | _ => none

/-- A look takes nothing. -/
theorem givable?_peek (s : Stream) : s.peek.stream.givable? = s.givable? := by
  cases s with
  | script s => rfl
  | tokenizer t => rfl
  | lines count inner =>
      rw [peek]
      split
      next => rfl
      next => split <;> rfl
  | balance nesting inner =>
      rw [peek]
      split
      next => rfl
      next =>
        split
        next => rw [judge_stream]; rfl
        next => rw [judge_stream]; rfl
        next => rfl
  | buffer lookahead inner =>
      rw [peek]
      split
      next => rfl
      next => split <;> rfl

/-- Behind a token that is taken, a buffer takes back that one. -/
theorem givable?_take {token : Token} (h : s.peek.result = .ok (some token)) :
    ∀ given, s.peek.stream.drop.givable? = some given → given = token := by
  intro given hgiven
  induction s using stackInduction with
  | script s => cases hgiven
  | tokenizer t => cases hgiven
  | layer s inner hinner _ =>
      obtain ⟨rest, below, -, hown⟩ := own_peek hinner h
      generalize s.peek.stream = next at hgiven hown
      cases next with
      | buffer lookahead bottom =>
          rw [drop_buffer lookahead token rest bottom hown] at hgiven
          cases hgiven
          rfl
      | _ => cases hgiven

/-- A pull of any number of tokens brings them from the front of what is
ahead. -/
theorem ahead_gather (hover : inner.Bottom (·.Over text)) (missing : Nat) :
    let (pulled, answer) := gather missing [] inner []
    answer.stream.failure? = none →
      inner.failure? = none ∧ texts pulled.reverse ++ answer.stream.ahead = inner.ahead := by
  have hkeeps := Tokenizer.keeps_over text
  refine (gather_keeps (P := fun pulled below => below.Bottom (·.Over text)
    ∧ (below.failure? = none →
      inner.failure? = none ∧ texts pulled.reverse ++ below.ahead = inner.ahead))
    ?_ ?_ ⟨hover, fun hfine => ⟨hfine, ?_⟩⟩ missing []).2
  · intro pulled below token hshown ⟨hbelow, hahead⟩
    refine ⟨(hbelow.peek hkeeps).drop hkeeps, fun hfine => ?_⟩
    have hpeek := (failure?_drop _).symm.trans hfine
    obtain ⟨hinner, hsame⟩ := hahead (failure?_peek hpeek)
    refine ⟨hinner, ?_⟩
    rw [← hsame, ← ahead_peek hbelow hpeek, ahead_take hbelow hshown]
    simp [String.append_assoc]
  · intro pulled below _ ⟨hbelow, hahead⟩
    refine ⟨hbelow.peek hkeeps, fun hfine => ?_⟩
    rw [ahead_peek hbelow hfine]
    exact hahead (failure?_peek hfine)
  · rw [List.reverse_nil, Token.texts_nil, String.empty_append]

/-- A layer that is put around a stack holds nothing. -/
theorem ahead_wrap (layer : Layer) (s : Stream) : (wrap layer s).ahead = s.ahead := by
  cases layer <;> simp [wrap, ahead, held, undelivered]

end Stream

-- ================================================================ readings

/-- The tokens that were taken and not given back, the latest first, and
the stack that they were taken from. -/
structure Reading where
  taken : List Token
  stack : Stream

namespace Reading

open Token (texts)

/-- What can be done with a stack: an operation, another layer around it,
or a balance check that shares the line counter which is outermost. -/
inductive Action where
  | ask (op : Operation)
  | wrap (layer : Stream.Layer)
  | check

/-- The tokens that are taken behind an operation with this result. -/
def record (taken : List Token) : Operation → Except LexError Reply → List Token
  | .consume, .ok (.taken token) => token :: taken
  | .pushback token, .ok .accepted => taken.erase token
  | _, _ => taken

def step (r : Reading) : Action → Reading
  | .ask op => ⟨record r.taken op (r.stack.perform op).result, (r.stack.perform op).stream⟩
  | .wrap layer => ⟨r.taken, r.stack.wrap layer⟩
  | .check =>
    match r.stack with
    | .lines count inner => ⟨r.taken, .balance {} (.lines count inner)⟩
    | stack => ⟨r.taken, stack⟩

def run (r : Reading) (actions : List Action) : Reading := actions.foldl step r

/-- The start of a text, with no layers. -/
def start (text : String) : Reading := ⟨[], .ofSource (.ofString text)⟩

/-- No text is lost while there is no failure. -/
structure Whole (text : String) (r : Reading) : Prop where
  bottom : r.stack.Bottom (·.Over text.toList)
  /-- What was taken and what is ahead are the text. -/
  split : r.stack.failure? = none → texts r.taken.reverse ++ r.stack.ahead = text
  /-- What the outermost layer takes back was taken last. -/
  last : ∀ token, r.stack.givable? = some token → ∃ earlier, r.taken = token :: earlier

variable {text : String} {r : Reading} {taken : List Token} {s : Stream}

theorem whole_start (text : String) : (start text).Whole text where
  bottom := Tokenizer.over_ofSource text
  split _ := by
    simp [start, Stream.ofSource, Tokenizer.ofSource, Stream.ahead, Stream.held, Front.tokens,
      Stream.undelivered, CharSource.ofString, CharSource.drain_ready]
  last := nofun

theorem Whole.look (h : Whole text ⟨taken, s⟩) : Whole text ⟨taken, s.peek.stream⟩ where
  bottom := h.bottom.peek (Tokenizer.keeps_over text.toList)
  split hfine := by
    have hsame := Stream.ahead_peek h.bottom hfine
    show texts taken.reverse ++ s.peek.stream.ahead = text
    rw [hsame]
    exact h.split (Stream.failure?_peek hfine)
  last := by
    show ∀ token, s.peek.stream.givable? = some token → _
    rw [s.givable?_peek]
    exact h.last

theorem Whole.take (h : Whole text ⟨taken, s⟩) {token : Token}
    (hshown : s.peek.result = .ok (some token)) :
    Whole text ⟨token :: taken, s.peek.stream.drop⟩ where
  bottom := h.look.bottom.drop (Tokenizer.keeps_over text.toList)
  split hfine := by
    have hwhole := h.look.split ((Stream.failure?_drop _).symm.trans hfine)
    rw [Stream.ahead_take h.bottom hshown] at hwhole
    simpa [String.append_assoc] using hwhole
  last given hgiven := ⟨taken, by rw [Stream.givable?_take hshown given hgiven]⟩

section Buffer

variable {lookahead : Lookahead} {inner : Stream}

theorem Whole.peekNth (h : Whole text ⟨taken, .buffer lookahead inner⟩) (n : Nat) :
    Whole text ⟨taken, ((Stream.buffer lookahead inner).perform (.peekNth n)).stream⟩ where
  bottom := h.bottom.perform (Tokenizer.keeps_over text.toList) (.peekNth n)
  split hfine := by
    have hover : inner.Bottom (·.Over text.toList) := h.bottom
    have hgather := Stream.ahead_gather hover (n + 1 - lookahead.queue.length)
    obtain ⟨hinner, hsame⟩ := hgather hfine
    have hwhole : texts taken.reverse ++ (Stream.buffer lookahead inner).ahead = text :=
      h.split hinner
    show texts taken.reverse
      ++ ((Stream.buffer lookahead inner).perform (.peekNth n)).stream.ahead = text
    rw [(Stream.perform_peekNth lookahead inner n).2, Stream.ahead_buffer, Token.texts_append,
      String.append_assoc, hsame, ← Stream.ahead_buffer]
    exact hwhole
  last := h.last

/-- The token that is given back is the one that was taken last, and is in
front again. -/
theorem Whole.giveBack (h : Whole text ⟨taken, .buffer lookahead inner⟩) {token : Token}
    (hlast : lookahead.last = some token) :
    Whole text ⟨taken.erase token,
      .buffer { lookahead with queue := token :: lookahead.queue, last := none } inner⟩ := by
  obtain ⟨earlier, htaken⟩ := h.last token hlast
  obtain rfl : taken = token :: earlier := htaken
  rw [List.erase_cons_head]
  refine ⟨h.bottom, fun hfine => ?_, nofun⟩
  have hwhole : texts (token :: earlier).reverse ++ (Stream.buffer lookahead inner).ahead = text :=
    h.split hfine
  show texts earlier.reverse ++ Stream.ahead _ = text
  rw [Stream.ahead_buffer] at hwhole ⊢
  simpa [String.append_assoc] using hwhole

end Buffer

/-- An operation loses no text. -/
theorem Whole.ask (h : r.Whole text) (op : Operation) : (r.step (.ask op)).Whole text := by
  obtain ⟨taken, s⟩ := r
  cases op with
  | peek => exact h.look
  | hasMore => exact h.look
  | consume =>
      show Whole text ⟨record taken .consume (s.consume.map .taken).result, s.consume.stream⟩
      rcases hresult : s.peek.result with error | _ | token
      · rw [Stream.consume_of_peek_error hresult]
        exact h.look
      · rw [Stream.consume_of_peek_end hresult]
        exact h.look
      · rw [Stream.consume_of_peek_token hresult]
        exact h.take hresult
  | peekNth n =>
      cases s with
      | buffer lookahead inner => exact h.peekNth n
      | _ => exact h
  | pushback token =>
      cases s with
      | buffer lookahead inner =>
          show Whole text ⟨record taken (.pushback token) _, _⟩
          by_cases hlast : lookahead.last = some token
          · obtain ⟨hresult, hstream⟩ := Stream.perform_pushback_last hlast inner
            rw [hresult, hstream]
            exact h.giveBack hlast
          · obtain ⟨hresult, hstream⟩ := Stream.perform_pushback_other hlast inner
            rw [hresult, hstream]
            exact ⟨h.bottom, h.split, h.last⟩
      | _ => exact h

/-- So does no other action. -/
theorem Whole.step (h : r.Whole text) (action : Action) : (r.step action).Whole text := by
  cases action with
  | ask op => exact h.ask op
  | wrap layer =>
      refine ⟨?_, fun hfine => ?_, ?_⟩
      · cases layer <;> exact h.bottom
      · show texts r.taken.reverse ++ (r.stack.wrap layer).ahead = text
        rw [Stream.ahead_wrap]
        cases layer <;> exact h.split hfine
      · cases layer <;> exact nofun
  | check =>
      obtain ⟨taken, s⟩ := r
      cases s with
      | lines count inner => exact ⟨h.bottom, h.split, nofun⟩
      | _ => exact h

/-- Nor any run of them. -/
theorem Whole.run (h : r.Whole text) (actions : List Action) : (r.run actions).Whole text := by
  induction actions generalizing r with
  | nil => exact h
  | cons action actions ih => exact ih (h.step action)

/-- Over a text, with any layers put around the tokenizer at any time and
any operations in between, errors of the layers included: as long as the
tokenizer has met no failure, the tokens that were taken and not given
back, the tokens held from the outermost layer inward, and the characters
that were not delivered are the text. -/
theorem nothing_lost (text : String) (actions : List Action)
    (hfine : ((start text).run actions).stack.failure? = none) :
    texts ((start text).run actions).taken.reverse
      ++ texts ((start text).run actions).stack.held
      ++ ((start text).run actions).stack.undelivered = text := by
  have hwhole := (whole_start text).run actions
  rw [String.append_assoc]
  exact hwhole.split hfine

/-- Looking ahead in `(] a` comes upon a closer that does not match. The
opener is taken, given back and taken again, through two more layers. -/
def mismatch : List Action :=
  [.wrap .balance, .wrap .buffer, .ask (.peekNth 1), .ask .consume,
    .ask (.pushback ⟨.symbol, "(", 0⟩), .wrap .lines, .check, .ask .consume, .ask .hasMore]

/-- The opener was taken then, the closer is held, and the rest is not lexed. -/
theorem nothing_lost_mismatch :
    let last := (start "(] a").run mismatch
    last.stack.failure? = none
      ∧ last.taken = [⟨.symbol, "(", 0⟩] ∧ last.stack.held = [⟨.symbol, "]", 1⟩]
      ∧ texts last.taken.reverse ++ texts last.stack.held ++ last.stack.undelivered = "(] a" := by
  have hfine : ((start "(] a").run mismatch).stack.failure? = none := by
    decide +kernel
  exact ⟨hfine, by decide +kernel, by decide +kernel, nothing_lost "(] a" mismatch hfine⟩

end Reading

end LayeredLexer
