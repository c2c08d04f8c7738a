/-
Layers alike. The three layers differ in what they make of a token, not in
how they come by it: a layer shows the first token that it holds, and when
it holds none it pulls one from below. So a stream is a bottom, which is a
script or a tokenizer, with layers around it that each hold a list of
tokens (`own`), and an induction on the stack has one case for all of
them (`stackInduction`).

# What a look at a layer does

`Looks` lists the three outcomes once. Whatever is to be shown of all
stacks splits on them, and the code of the layers is not opened again.

# Operations

An operation is what can be asked of the outermost layer. Looking further
ahead and giving a token back are requests to a buffer; other layers have
no such requests, and answer that. A look far ahead is a pull of several
tokens; what one pull keeps it keeps as well (`gather_keeps`). None of
them reaches the tokenizer but by looks at it and takes from it, so
what these keep stays true at the bottom of a stack (`Bottom`).
-/
import LayeredLexer.Proofs.Stream.Yields

namespace LayeredLexer

/-- Closing a delimiter pulls no token. -/
theorem Nesting.pending_close (nesting : Nesting) :
    nesting.close.1.pending = nesting.pending := by
  unfold close
  split <;> rfl

namespace Stream

-- ================================================================ layers

/-- The tokens that the outermost layer has pulled and not delivered. -/
def own : Stream → List Token
  | .script _ | .tokenizer _ => []
  | .lines count _ => count.pending.toList
  | .balance nesting _ => nesting.pending.toList
  | .buffer lookahead _ => lookahead.queue

/-- The stream has a tokenizer at the bottom, of which this holds. -/
def Bottom (Q : Tokenizer → Prop) : Stream → Prop
  | .script _ => False
  | .tokenizer t => Q t
  | .lines _ inner | .balance _ inner | .buffer _ inner => inner.Bottom Q

/-- An induction on a stack, with one case for all layers. -/
theorem stackInduction {P : Stream → Prop} (script : ∀ s, P (.script s))
    (tokenizer : ∀ t, P (.tokenizer t))
    (layer : ∀ s inner, s.inner? = some inner → P inner → P s) (s : Stream) : P s := by
  induction s with
  | script s => exact script s
  | tokenizer t => exact tokenizer t
  | lines count inner ih => exact layer _ inner rfl ih
  | balance nesting inner ih => exact layer _ inner rfl ih
  | buffer lookahead inner ih => exact layer _ inner rfl ih

/-- Fresh layers around the tokenizer of a source, the first one innermost. -/
def stack (layers : List Layer) (source : CharSource) : Stream :=
  layers.foldl (fun s layer => s.wrap layer) (ofSource source)

theorem stack_append (layers : List Layer) (layer : Layer) (source : CharSource) :
    stack (layers ++ [layer]) source = (stack layers source).wrap layer := by
  simp [stack]

variable {s inner : Stream} {Q : Tokenizer → Prop}

theorem bottom_layer (h : s.inner? = some inner) : s.Bottom Q ↔ inner.Bottom Q := by
  cases s <;> cases h <;> exact Iff.rfl

/-- Taking a token from a layer leaves the others, and what is below. -/
theorem drop_layer (h : s.inner? = some inner) {token : Token} {rest : List Token}
    (hown : s.own = token :: rest) : s.drop.inner? = some inner ∧ s.drop.own = rest := by
  cases s with
  | script s => cases h
  | tokenizer t => cases h
  | lines count below =>
      cases h
      obtain ⟨pending, line⟩ := count
      cases pending with
      | none => cases hown
      | some held =>
          cases hown
          exact ⟨rfl, rfl⟩
  | balance nesting below =>
      cases h
      obtain ⟨pending, opened, error⟩ := nesting
      cases pending with
      | none => cases hown
      | some held =>
          cases hown
          exact ⟨rfl, rfl⟩
  | buffer lookahead below =>
      cases h
      rw [drop_buffer lookahead token rest inner hown]
      exact ⟨rfl, rfl⟩

-- ============================================================ their kinds

/-- What the layers are, from the outermost inward. -/
def kinds : Stream → List Layer
  | .script _ | .tokenizer _ => []
  | .lines _ inner => .lines :: inner.kinds
  | .balance _ inner => .balance :: inner.kinds
  | .buffer _ inner => .buffer :: inner.kinds

theorem kinds_drop (s : Stream) : s.drop.kinds = s.kinds := by
  cases s with
  | buffer lookahead inner =>
      cases hqueue : lookahead.queue <;> simp [drop, hqueue, kinds]
  | _ => rfl

-- ========================================================= a look at one

/-- What a look at a layer around `inner` does. -/
inductive Looks (s inner : Stream) : Prop
  /-- The layer shows the first token that it holds. -/
  | holds {token : Token} {rest : List Token} (own : s.own = token :: rest)
      (result : s.peek.result = .ok (some token)) (stream : s.peek.stream = s)
  /-- It pulls a token, and shows it or the error that it finds in it. -/
  | pulls {token : Token} (own : s.own = []) (below : inner.peek.result = .ok (some token))
      (pulled : s.peek.stream.own = [token])
      (rest : s.peek.stream.inner? = some inner.peek.stream.drop)
      (result : s.peek.result = .ok (some token)
        ∨ ∃ error, s.peek.result = .error (.balance error))
  /-- There is no token to pull, and it answers as the stream below does,
  or with an error that it finds at the end. -/
  | passes (own : s.own = []) (below : ∀ token, inner.peek.result ≠ .ok (some token))
      (pulled : s.peek.stream.own = []) (rest : s.peek.stream.inner? = some inner.peek.stream)
      (result : s.peek.result = inner.peek.result
        ∨ inner.peek.result = .ok none ∧ ∃ error, s.peek.result = .error (.balance error))

theorem judge_stream (outcome : Option Token) (verdict : Nesting × Option BalanceError)
    (inner : Stream) (events : List Log.Event) :
    (judge outcome verdict inner events).stream = .balance verdict.1 inner := by
  obtain ⟨nesting, error⟩ := verdict
  cases error <;> rfl

theorem judge_result (outcome : Option Token) (verdict : Nesting × Option BalanceError)
    (inner : Stream) (events : List Log.Event) :
    (judge outcome verdict inner events).result = .ok outcome
      ∨ ∃ error, (judge outcome verdict inner events).result = .error (.balance error) := by
  obtain ⟨nesting, error⟩ := verdict
  cases error with
  | none => exact .inl rfl
  | some error => exact .inr ⟨error, rfl⟩

/-- With nothing in front of the stream below, a line counter and a buffer
pass its answer on. -/
theorem peek_lines_pass (h : ∀ token, inner.peek.result ≠ .ok (some token)) (line : Nat) :
    (lines ⟨none, line⟩ inner).peek
      = ⟨inner.peek.result, lines ⟨none, line⟩ inner.peek.stream, inner.peek.events⟩ := by
  rw [peek]
  dsimp only
  split <;> simp_all

theorem peek_buffer_pass (h : ∀ token, inner.peek.result ≠ .ok (some token))
    {lookahead : Lookahead} (hqueue : lookahead.queue = []) :
    (buffer lookahead inner).peek
      = ⟨inner.peek.result, buffer lookahead inner.peek.stream, inner.peek.events⟩ := by
  rw [peek, hqueue]
  dsimp only
  split <;> simp_all

/-- A buffer shows the first token of its queue. -/
theorem peek_buffer_held {lookahead : Lookahead} {token : Token} {rest : List Token}
    (hqueue : lookahead.queue = token :: rest) (inner : Stream) :
    (buffer lookahead inner).peek = ⟨.ok (some token), buffer lookahead inner, []⟩ := by
  rw [peek, hqueue]

theorem peek_buffer_token {token : Token} (h : inner.peek.result = .ok (some token))
    {lookahead : Lookahead} (hqueue : lookahead.queue = []) :
    (buffer lookahead inner).peek
      = ⟨.ok (some token), buffer { lookahead with queue := [token] } inner.peek.stream.drop,
        inner.peek.events⟩ := by
  rw [peek, hqueue]
  dsimp only
  split <;> simp_all

theorem peek_balance_error {error : LexError} (h : inner.peek.result = .error error)
    {nesting : Nesting} (hpending : nesting.pending = none) :
    (balance nesting inner).peek
      = ⟨.error error, balance nesting inner.peek.stream, inner.peek.events⟩ := by
  rw [peek, hpending]
  dsimp only
  split <;> simp_all

/-- A look leaves the layers what they are. -/
theorem kinds_peek (s : Stream) : s.peek.stream.kinds = s.kinds := by
  induction s with
  | script s => rfl
  | tokenizer t => rfl
  | lines count inner ih =>
      obtain ⟨pending, line⟩ := count
      cases pending with
      | some token => rfl
      | none =>
          rcases hbelow : inner.peek.result with error | _ | token
          · rw [peek_lines_pass (by simp [hbelow])]
            exact congrArg (Layer.lines :: ·) ih
          · rw [peek_lines_end hbelow]
            exact congrArg (Layer.lines :: ·) ih
          · rw [peek_lines_token hbelow]
            exact congrArg (Layer.lines :: ·) ((kinds_drop _).trans ih)
  | balance nesting inner ih =>
      cases hpending : nesting.pending with
      | some token => rw [peek_balance_held hpending]
      | none =>
          rcases hbelow : inner.peek.result with error | _ | token
          · rw [peek_balance_error hbelow hpending]
            exact congrArg (Layer.balance :: ·) ih
          · rw [peek_balance_end hpending hbelow, judge_stream]
            exact congrArg (Layer.balance :: ·) ih
          · rw [peek_balance_token hpending hbelow, judge_stream]
            exact congrArg (Layer.balance :: ·) ((kinds_drop _).trans ih)
  | buffer lookahead inner ih =>
      cases hqueue : lookahead.queue with
      | cons token rest => rw [peek_buffer_held hqueue]
      | nil =>
          rcases hbelow : inner.peek.result with error | _ | token
          · rw [peek_buffer_pass (by simp [hbelow]) hqueue]
            exact congrArg (Layer.buffer :: ·) ih
          · rw [peek_buffer_pass (by simp [hbelow]) hqueue]
            exact congrArg (Layer.buffer :: ·) ih
          · rw [peek_buffer_token hbelow hqueue]
            exact congrArg (Layer.buffer :: ·) ((kinds_drop _).trans ih)

theorem kinds_consume (s : Stream) : s.consume.stream.kinds = s.kinds := by
  rcases s.consume_stream with hsame | hdrop
  · rw [hsame, kinds_peek]
  · rw [hdrop, kinds_drop, kinds_peek]

theorem looks_lines (count : LineCount) (inner : Stream) : (lines count inner).Looks inner := by
  obtain ⟨pending, line⟩ := count
  cases pending with
  | some held => exact .holds rfl rfl rfl
  | none =>
      by_cases hshown : ∃ token, inner.peek.result = .ok (some token)
      · obtain ⟨token, hbelow⟩ := hshown
        have hpeek := peek_lines_token hbelow line
        apply Looks.pulls rfl hbelow
        · rw [hpeek]; rfl
        · rw [hpeek]; rfl
        · exact .inl (by rw [hpeek])
      · have hbelow := fun token h => hshown ⟨token, h⟩
        have hpeek := peek_lines_pass hbelow line
        apply Looks.passes rfl hbelow
        · rw [hpeek]; rfl
        · rw [hpeek]; rfl
        · exact .inl (by rw [hpeek])

theorem looks_buffer (lookahead : Lookahead) (inner : Stream) :
    (buffer lookahead inner).Looks inner := by
  cases hqueue : lookahead.queue with
  | cons held rest =>
      have hpeek := peek_buffer_held hqueue inner
      have hown : (buffer lookahead inner).own = held :: rest := hqueue
      apply Looks.holds hown
      · rw [hpeek]
      · rw [hpeek]
  | nil =>
      have hown : (buffer lookahead inner).own = [] := hqueue
      by_cases hshown : ∃ token, inner.peek.result = .ok (some token)
      · obtain ⟨token, hbelow⟩ := hshown
        have hpeek := peek_buffer_token hbelow hqueue
        apply Looks.pulls hown hbelow
        · rw [hpeek]; rfl
        · rw [hpeek]; rfl
        · exact .inl (by rw [hpeek])
      · have hbelow := fun token h => hshown ⟨token, h⟩
        have hpeek := peek_buffer_pass hbelow hqueue
        apply Looks.passes hown hbelow
        · rw [hpeek]; exact hqueue
        · rw [hpeek]; rfl
        · exact .inl (by rw [hpeek])

theorem looks_balance (nesting : Nesting) (inner : Stream) :
    (balance nesting inner).Looks inner := by
  cases hpending : nesting.pending with
  | some held =>
      have hpeek := peek_balance_held (s := inner) hpending
      have hown : (balance nesting inner).own = [held] := by
        show nesting.pending.toList = [held]
        rw [hpending]; rfl
      apply Looks.holds hown
      · rw [hpeek]
      · rw [hpeek]
  | none =>
      have hown : (balance nesting inner).own = [] := by
        show nesting.pending.toList = []
        rw [hpending]; rfl
      rcases hbelow : inner.peek.result with error | _ | token
      · have hpeek := peek_balance_error hbelow hpending
        apply Looks.passes hown
        · intro token h
          cases hbelow.symm.trans h
        · rw [hpeek]; exact hown
        · rw [hpeek]; rfl
        · exact .inl (by rw [hpeek, hbelow])
      · have hpeek := peek_balance_end hpending hbelow
        apply Looks.passes hown
        · intro token h
          cases hbelow.symm.trans h
        · rw [hpeek, judge_stream]
          show nesting.close.1.pending.toList = []
          rw [nesting.pending_close, hpending]; rfl
        · rw [hpeek, judge_stream]; rfl
        · rw [hpeek, hbelow]
          rcases judge_result none nesting.close inner.peek.stream inner.peek.events with h | h
          · exact .inl h
          · exact .inr ⟨rfl, h⟩
      · have hpeek := peek_balance_token hpending hbelow
        apply Looks.pulls hown hbelow
        · rw [hpeek, judge_stream]
          show (nesting.receive token).1.pending.toList = [token]
          rw [(nesting.receive_bounds token).1]; rfl
        · rw [hpeek, judge_stream]; rfl
        · rw [hpeek]
          exact judge_result _ _ _ _

/-- Every layer answers a look in one of the three ways. -/
theorem looks_layer (h : s.inner? = some inner) : s.Looks inner := by
  cases s with
  | script s => cases h
  | tokenizer t => cases h
  | lines count below =>
      cases h
      exact looks_lines count _
  | balance nesting below =>
      cases h
      exact looks_balance nesting _
  | buffer lookahead below =>
      cases h
      exact looks_buffer lookahead _

/-- The token that a look at a layer has shown is held by it, in front. -/
theorem own_peek (h : s.inner? = some inner) {token : Token}
    (hshown : s.peek.result = .ok (some token)) :
    ∃ rest below, s.peek.stream.inner? = some below ∧ s.peek.stream.own = token :: rest := by
  cases looks_layer h with
  | @holds first rest own result stream =>
      obtain rfl : first = token := by simpa [result] using hshown
      rw [stream]
      exact ⟨rest, inner, h, own⟩
  | @pulls first own below pulled rest result =>
      rcases result with hok | ⟨error, herror⟩
      · obtain rfl : first = token := by simpa [hok] using hshown
        exact ⟨[], inner.peek.stream.drop, rest, pulled⟩
      · cases herror.symm.trans hshown
  | passes own below pulled rest result =>
      rcases result with hsame | ⟨-, error, herror⟩
      · exact absurd (hsame.symm.trans hshown) (below token)
      · cases herror.symm.trans hshown

end Stream

-- ============================================================ operations

/-- The answer with another result in the place of this one. -/
def Answer.map {α β : Type} (f : α → β) (answer : Answer α) : Answer β :=
  ⟨answer.result.map f, answer.stream, answer.events⟩

theorem Answer.error_of_map {α β : Type} {f : α → β} {answer : Answer α} {error : LexError}
    (h : (answer.map f).result = .error error) : answer.result = .error error := by
  obtain ⟨result, stream, events⟩ := answer
  cases result with
  | ok a => cases h
  | error raised =>
      cases h
      rfl

/-- Asking whether a token follows raises what a look raises. -/
theorem Stream.hasMore_error {s : Stream} {error : LexError} :
    s.hasMore.result = .error error ↔ s.peek.result = .error error := by
  show s.peek.result.map _ = _ ↔ _
  cases s.peek.result <;> simp [Except.map]

/-- What can be asked of the outermost layer. -/
inductive Operation where
  | peek
  | hasMore
  | consume
  | peekNth (n : Nat)
  | pushback (token : Token)
deriving DecidableEq, Repr

/-- What an operation answers if it raises no error. -/
inductive Reply where
  | shown (token : Option Token)
  | more (follows : Bool)
  | taken (token : Token)
  | accepted
  /-- The outermost layer has no such request. -/
  | inapplicable
deriving DecidableEq, Repr

namespace Stream

/-- Does one operation. -/
def perform (s : Stream) : Operation → Answer Reply
  | .peek => s.peek.map .shown
  | .hasMore => s.hasMore.map .more
  | .consume => s.consume.map .taken
  | .peekNth n =>
    match s.peekNth? n with
    | some answer => answer.map .shown
    | none => ⟨.ok .inapplicable, s, []⟩
  | .pushback token =>
    match s.pushback? token with
    | some answer => answer.map fun _ => .accepted
    | none => ⟨.ok .inapplicable, s, []⟩

/-- The results of operations that are done one after the other. -/
def results (s : Stream) : List Operation → List (Except LexError Reply)
  | [] => []
  | op :: ops => (s.perform op).result :: (s.perform op).stream.results ops

/-- The stream that operations leave which are done one after the other. -/
def after (s : Stream) : List Operation → Stream
  | [] => s
  | op :: ops => (s.perform op).stream.after ops

-- ================================================== requests to a buffer

section Buffer

variable {lookahead : Lookahead} {token : Token}

/-- Looking ahead puts what it pulls behind the queue. -/
theorem perform_peekNth (lookahead : Lookahead) (inner : Stream) (n : Nat) :
    let (pulled, answer) := gather (n + 1 - lookahead.queue.length) [] inner []
    let queue := lookahead.queue ++ pulled.reverse
    ((buffer lookahead inner).perform (.peekNth n)).result
        = (answer.result.map fun found => if found then queue[n]? else none).map .shown
      ∧ ((buffer lookahead inner).perform (.peekNth n)).stream
        = buffer { lookahead with queue := queue } answer.stream := ⟨rfl, rfl⟩

/-- The token delivered last is put before the queue. -/
theorem perform_pushback_last (h : lookahead.last = some token) (inner : Stream) :
    ((buffer lookahead inner).perform (.pushback token)).result = .ok .accepted
      ∧ ((buffer lookahead inner).perform (.pushback token)).stream
        = buffer { lookahead with queue := token :: lookahead.queue, last := none } inner := by
  unfold perform pushback?
  dsimp only
  rw [if_pos h]
  exact ⟨rfl, rfl⟩

/-- Any other token is refused, and only the refusal is remembered. -/
theorem perform_pushback_other (h : lookahead.last ≠ some token) (inner : Stream) :
    ((buffer lookahead inner).perform (.pushback token)).result = .error (.invalidPushback token)
      ∧ ((buffer lookahead inner).perform (.pushback token)).stream
        = buffer { lookahead with refused := some token } inner := by
  unfold perform pushback?
  dsimp only
  rw [if_neg h]
  exact ⟨rfl, rfl⟩

end Buffer

-- =========================================================== pulling many

/-- What one pull keeps, and the look that finds no token, is kept by a
pull of any number of tokens. -/
theorem gather_keeps {P : List Token → Stream → Prop} {s : Stream}
    (hpull : ∀ pulled s token, s.peek.result = .ok (some token) → P pulled s →
      P (token :: pulled) s.peek.stream.drop)
    (hstop : ∀ pulled s, (∀ token, s.peek.result ≠ .ok (some token)) → P pulled s →
      P pulled s.peek.stream)
    {pulled : List Token} (h : P pulled s) (missing : Nat) (events : List Log.Event) :
    P (gather missing pulled s events).1 (gather missing pulled s events).2.stream := by
  fun_induction gather missing pulled s events with
  | case1 => exact h
  | case2 pulled s events missing token next more hpeek ih =>
      have hkept := hpull pulled s token (by rw [hpeek]) h
      rw [hpeek] at hkept
      exact ih hkept
  | case3 pulled s events missing next more hpeek =>
      have hkept := hstop pulled s (by simp [hpeek]) h
      rwa [hpeek] at hkept
  | case4 pulled s events missing error next more hpeek =>
      have hkept := hstop pulled s (by simp [hpeek]) h
      rwa [hpeek] at hkept

-- ============================================================= the bottom

end Stream

/-- Looks and takes of a tokenizer keep this. -/
structure Tokenizer.Keeps (Q : Tokenizer → Prop) : Prop where
  peek : ∀ t, Q t → Q t.peek.2.1
  drop : ∀ t, Q t → Q t.drop

namespace Stream

section Bottom

variable {s : Stream} {Q : Tokenizer → Prop} (keeps : Tokenizer.Keeps Q)

include keeps

theorem Bottom.drop (h : s.Bottom Q) : s.drop.Bottom Q := by
  cases s with
  | script s => exact h
  | tokenizer t => exact keeps.drop t h
  | lines count inner => exact h
  | balance nesting inner => exact h
  | buffer lookahead inner =>
      cases hqueue : lookahead.queue with
      | nil => simpa [Stream.drop, hqueue] using h
      | cons token rest =>
          rw [drop_buffer lookahead token rest inner hqueue]
          exact h

theorem Bottom.peek (h : s.Bottom Q) : s.peek.stream.Bottom Q := by
  induction s using stackInduction with
  | script s => exact h.elim
  | tokenizer t => exact keeps.peek t h
  | layer s inner hinner ih =>
      have hbelow := ih ((bottom_layer hinner).1 h)
      cases looks_layer hinner with
      | holds own result stream =>
          rw [stream]
          exact h
      | pulls own below pulled rest result => exact (bottom_layer rest).2 (hbelow.drop keeps)
      | passes own below pulled rest result => exact (bottom_layer rest).2 hbelow

/-- What a tokenizer keeps is kept at the bottom of a stack, whatever is
asked of the outermost layer. -/
theorem Bottom.perform (h : s.Bottom Q) (op : Operation) : (s.perform op).stream.Bottom Q := by
  have hpeek := h.peek keeps
  cases op with
  | peek => exact hpeek
  | hasMore => exact hpeek
  | consume =>
      show s.consume.stream.Bottom Q
      rcases s.consume_stream with hsame | hdrop
      · rw [hsame]
        exact hpeek
      · rw [hdrop]
        exact hpeek.drop keeps
  | peekNth n =>
      cases s with
      | buffer lookahead inner =>
          have hinner : inner.Bottom Q := h
          rw [(perform_peekNth lookahead inner n).2]
          apply gather_keeps (P := fun _ below => below.Bottom Q) _ _ hinner
          · intro pulled below token _ hbelow
            exact (hbelow.peek keeps).drop keeps
          · intro pulled below _ hbelow
            exact hbelow.peek keeps
      | _ => exact h
  | pushback token =>
      cases s with
      | buffer lookahead inner =>
          by_cases hlast : lookahead.last = some token
          · rw [(perform_pushback_last hlast inner).2]
            exact h
          · rw [(perform_pushback_other hlast inner).2]
            exact h
      | _ => exact h

/-- And whatever is asked of it one after the other. -/
theorem Bottom.after (h : s.Bottom Q) (ops : List Operation) : (s.after ops).Bottom Q := by
  induction ops generalizing s with
  | nil => exact h
  | cons op ops ih => exact ih (h.perform keeps op)

end Bottom

/-- What holds of the tokenizer of a source and is kept by each layer put
around it holds of the stack. -/
theorem stack_keeps {P : Stream → Prop} {source : CharSource} (start : P (ofSource source))
    (keeps : ∀ layer s, P s → P (s.wrap layer)) (layers : List Layer) :
    P (stack layers source) := by
  unfold stack
  generalize ofSource source = s at start ⊢
  induction layers generalizing s with
  | nil => exact start
  | cons layer layers ih => exact ih _ (keeps layer s start)

/-- Layers are put around the tokenizer of their source. -/
theorem bottom_stack {Q : Tokenizer → Prop} {source : CharSource} (h : Q (.ofSource source))
    (layers : List Layer) : (stack layers source).Bottom Q := by
  refine stack_keeps (P := Bottom Q) h (fun layer s hbottom => ?_) layers
  cases layer <;> exact hbottom

end Stream

-- ====================================================== errors of a stack

namespace Tokenizer

/-- What a look at a tokenizer raises is a failure. -/
theorem look_error {t : Tokenizer} {error : LexError} (h : t.look = .error error) :
    error.isFatal = true := by
  unfold look at h
  split at h <;> cases h
  rfl

/-- Any tokenizer stays one. -/
theorem keeps_true : Keeps fun _ => True where
  peek _ _ := trivial
  drop _ _ := trivial

end Tokenizer

namespace Stream

variable {s : Stream}

/-- Over a tokenizer, whatever the layers are, what a look raises is a
failure or a fault in the nesting. -/
theorem peek_error {error : LexError} (hbottom : s.Bottom fun _ => True)
    (h : s.peek.result = .error error) : error.isFatal = true ∨ error.isBalance = true := by
  induction s using stackInduction with
  | script s => exact hbottom.elim
  | tokenizer t =>
      left
      apply Tokenizer.look_error (t := t.peek.2.1)
      rw [← t.peek_eq_look]
      exact h
  | layer s inner hinner ih =>
      have hbelow := (bottom_layer hinner).1 hbottom
      cases looks_layer hinner with
      | holds own result stream => cases result.symm.trans h
      | pulls own below pulled rest result =>
          rcases result with hok | ⟨raised, hraised⟩
          · cases hok.symm.trans h
          · cases hraised.symm.trans h
            exact .inr rfl
      | passes own below pulled rest result =>
          rcases result with hsame | ⟨-, raised, hraised⟩
          · exact ih hbelow (hsame.symm.trans h)
          · cases hraised.symm.trans h
            exact .inr rfl

/-- So is what a request raises, unless the input has ended. -/
theorem consume_error {error : LexError} (hbottom : s.Bottom fun _ => True)
    (h : s.consume.result = .error error) (hend : error ≠ .endOfInput) :
    error.isFatal = true ∨ error.isBalance = true := by
  rcases hpeek : s.peek.result with raised | _ | token
  · rw [consume_of_peek_error hpeek] at h
    cases h
    exact peek_error hbottom hpeek
  · rw [consume_of_peek_end hpeek] at h
    cases h
    exact absurd rfl hend
  · rw [consume_of_peek_token hpeek] at h
    cases h

/-- A request leaves the tokenizer at the bottom. -/
theorem Bottom.consume (hbottom : s.Bottom fun _ => True) :
    s.consume.stream.Bottom fun _ => True :=
  hbottom.perform Tokenizer.keeps_true .consume

end Stream

end LayeredLexer
