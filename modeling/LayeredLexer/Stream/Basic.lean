/-
Token streams: a tokenizer or a script of tokens with any number of
layers around it. A layer answers requests by drawing on the stream
below, holds at most the tokens it has pulled and not delivered, and
never loses one.

Two primitives are enough. A peek finds out what comes next: a token, the
end, or an error. A drop takes the token that the last peek has shown.
Consuming a token comes to one after the other in every layer
(`consume_eq_takeNext`), also in a buffer, which does not look first.

The layers are
  lines    counts the lines that pass,
  balance  checks the nesting of delimiters, over a line counter,
  buffer   looks ahead any number of tokens and takes one back.
-/
import LayeredLexer.Lexer.Tokenizer
import LayeredLexer.Stream.LineCount
import LayeredLexer.Stream.Nesting
import LayeredLexer.Stream.Script

namespace LayeredLexer

/-- The state of a lookahead buffer: the tokens pulled and not delivered,
the next one first, the token delivered last while it may be given back,
and the token that was refused last. -/
structure Lookahead where
  queue : List Token := []
  last : Option Token := none
  refused : Option Token := none
deriving DecidableEq, Repr

/-- A token source with the layers around it. -/
inductive Stream where
  | script (s : Script)
  | tokenizer (t : Tokenizer)
  | lines (count : LineCount) (inner : Stream)
  | balance (nesting : Nesting) (inner : Stream)
  | buffer (lookahead : Lookahead) (inner : Stream)

/-- The answer to a request: a result or an error, the stream after it,
and what was logged. -/
structure Answer (α : Type) where
  result : Except LexError α
  stream : Stream
  events : List Log.Event

namespace Stream

/-- The tokenizer of a character source as a stream. -/
def ofSource (source : CharSource) : Stream := .tokenizer (.ofSource source)

-- ================================================== what a stream tells

/-- The number of characters the tokenizer has taken, or of tokens that
were taken from a script. -/
def offset : Stream → Nat
  | .script s => s.taken
  | .tokenizer t => t.offset
  | .lines _ inner | .balance _ inner | .buffer _ inner => inner.offset

/-- The line that the nearest line counter has reached. -/
def line : Stream → Nat
  | .lines count _ => count.line
  | .balance _ inner => inner.line
  | .script _ | .tokenizer _ | .buffer _ _ => 1

/-- The last error that the stream remembers; one from further below goes
first. -/
def lastError : Stream → Option LexError
  | .script s => s.error
  | .tokenizer t => t.failure?.map .failure
  | .lines _ inner => inner.lastError
  | .balance nesting inner => inner.lastError.or (nesting.error.map .balance)
  | .buffer lookahead inner => inner.lastError.or (lookahead.refused.map .invalidPushback)

/-- The number of open delimiters of a balance check. -/
def depth : Stream → Nat
  | .balance nesting _ => nesting.opened.length
  | _ => 0

-- =========================================================== primitives

/-- Takes the token that a peek has shown. -/
def drop : Stream → Stream
  | .script s => .script s.drop
  | .tokenizer t => .tokenizer t.drop
  | .lines count inner => .lines { count with pending := none } inner
  | .balance nesting inner => .balance { nesting with pending := none } inner
  | .buffer lookahead inner =>
    match lookahead.queue with
    | [] => .buffer lookahead inner
    | token :: rest => .buffer { lookahead with queue := rest, last := some token } inner

@[simp] theorem drop_lines (count : LineCount) (inner : Stream) :
    (lines count inner).drop = lines { count with pending := none } inner := rfl

@[simp] theorem drop_balance (nesting : Nesting) (inner : Stream) :
    (balance nesting inner).drop = balance { nesting with pending := none } inner := rfl

@[simp] theorem drop_buffer (lookahead : Lookahead) (token : Token) (rest : List Token)
    (inner : Stream) (h : lookahead.queue = token :: rest) :
    (buffer lookahead inner).drop
      = buffer { lookahead with queue := rest, last := some token } inner := by
  simp [drop, h]

/-- A balance check answers with what its verdict leaves: the error, if
there is one, else the outcome. -/
def judge (outcome : Option Token) (verdict : Nesting × Option BalanceError) (inner : Stream)
    (events : List Log.Event) : Answer (Option Token) :=
  match verdict with
  | (nesting, none) => ⟨.ok outcome, .balance nesting inner, events⟩
  | (nesting, some error) =>
    ⟨.error (.balance error), .balance nesting inner,
      events ++ [nesting.report error inner.offset inner.line]⟩

/-- Shows the next token, if there is one. A layer that holds a token
shows it; otherwise it pulls one from below and holds it. -/
def peek : Stream → Answer (Option Token)
  | .script s =>
    let (result, next) := s.peek
    ⟨result, .script next, []⟩
  | .tokenizer t =>
    let (result, next, events) := t.peek
    ⟨result, .tokenizer next, events⟩
  | .lines count inner =>
    match count.pending with
    | some token => ⟨.ok (some token), .lines count inner, []⟩
    | none =>
      match inner.peek with
      | ⟨.ok (some token), next, events⟩ =>
        ⟨.ok (some token), .lines (count.receive token) next.drop, events⟩
      | ⟨result, next, events⟩ => ⟨result, .lines count next, events⟩
  | .balance nesting inner =>
    match nesting.pending with
    | some token => ⟨.ok (some token), .balance nesting inner, []⟩
    | none =>
      match inner.peek with
      | ⟨.ok (some token), next, events⟩ => judge (some token) (nesting.receive token) next.drop events
      | ⟨.ok none, next, events⟩ => judge none nesting.close next events
      | ⟨.error error, next, events⟩ => ⟨.error error, .balance nesting next, events⟩
  | .buffer lookahead inner =>
    match lookahead.queue with
    | token :: _ => ⟨.ok (some token), .buffer lookahead inner, []⟩
    | [] =>
      match inner.peek with
      | ⟨.ok (some token), next, events⟩ =>
        ⟨.ok (some token), .buffer { lookahead with queue := [token] } next.drop, events⟩
      | ⟨result, next, events⟩ => ⟨result, .buffer lookahead next, events⟩

-- ============================================================= requests

/-- Whether a token follows. -/
def hasMore (stream : Stream) : Answer Bool :=
  match stream.peek with
  | ⟨result, next, events⟩ => ⟨result.map (·.isSome), next, events⟩

/-- Shows the next token and takes it. At the end of the input that is an
error, which is not remembered. -/
def takeNext (stream : Stream) : Answer Token :=
  match stream.peek with
  | ⟨.ok (some token), next, events⟩ => ⟨.ok token, next.drop, events⟩
  | ⟨.ok none, next, events⟩ => ⟨.error .endOfInput, next, events⟩
  | ⟨.error error, next, events⟩ => ⟨.error error, next, events⟩

/-- Takes the next token. A layer that fills up first takes what it shows;
a buffer takes the first token of its queue, and passes the request on if
there is none. Either way it remembers the token. -/
def consume : Stream → Answer Token
  | .script s => (script s).takeNext
  | .tokenizer t => (tokenizer t).takeNext
  | .lines count inner => (lines count inner).takeNext
  | .balance nesting inner => (balance nesting inner).takeNext
  | .buffer lookahead inner =>
    match lookahead.queue with
    | token :: rest =>
      ⟨.ok token, .buffer { lookahead with queue := rest, last := some token } inner, []⟩
    | [] =>
      match inner.consume with
      | ⟨.ok token, next, events⟩ =>
        ⟨.ok token, .buffer { lookahead with last := some token } next, events⟩
      | ⟨.error error, next, events⟩ => ⟨.error error, .buffer lookahead next, events⟩

/-- The way a buffer has of its own comes to the same. -/
theorem consume_eq_takeNext (s : Stream) : s.consume = s.takeNext := by
  induction s with
  | script s => rfl
  | tokenizer t => rfl
  | lines count inner => rfl
  | balance nesting inner => rfl
  | buffer lookahead inner ih =>
    obtain ⟨queue, last, refused⟩ := lookahead
    cases queue with
    | cons token rest => rfl
    | nil =>
      -- what the queue is to hold is taken at once, or was passed by
      simp only [consume, ih, takeNext, peek]
      rcases inner.peek with ⟨error | _ | token, next, events⟩ <;> rfl

/-- Pulls up to `missing` tokens behind those that were pulled before,
the last one first. The result tells whether all of them came. -/
def gather (missing : Nat) (pulled : List Token) (inner : Stream) (events : List Log.Event) :
    List Token × Answer Bool :=
  match missing with
  | 0 => (pulled, ⟨.ok true, inner, events⟩)
  | missing + 1 =>
    match inner.peek with
    | ⟨.ok (some token), next, more⟩ => gather missing (token :: pulled) next.drop (events ++ more)
    | ⟨.ok none, next, more⟩ => (pulled, ⟨.ok false, next, events ++ more⟩)
    | ⟨.error error, next, more⟩ => (pulled, ⟨.error error, next, events ++ more⟩)

/-- Shows the token `n` places ahead of a lookahead buffer, the next one
being at place zero. What was pulled stays in the buffer even if a later
pull fails. Other streams have no such request. -/
def peekNth? (stream : Stream) (n : Nat) : Option (Answer (Option Token)) :=
  match stream with
  | .buffer lookahead inner =>
    let (pulled, ⟨result, next, events⟩) :=
      gather (n + 1 - lookahead.queue.length) [] inner []
    let queue := lookahead.queue ++ pulled.reverse
    let shown := result.map fun found => if found then queue[n]? else none
    some ⟨shown, .buffer { lookahead with queue := queue } next, events⟩
  | _ => none

/-- Gives a token back to a lookahead buffer. Only the token taken last is
accepted, and only once; it is the next token again. Other streams have no
such request. -/
def pushback? (stream : Stream) (token : Token) : Option (Answer Unit) :=
  match stream with
  | .buffer lookahead inner =>
    if lookahead.last = some token then
      some ⟨.ok (),
        .buffer { lookahead with queue := token :: lookahead.queue, last := none } inner,
        [(Log.Event.debug "Token pushed back").noting "offset" (toString token.offset)]⟩
    else
      let error := LexError.invalidPushback token
      some ⟨.error error, .buffer { lookahead with refused := some token } inner,
        [Log.Event.error error.code error.message]⟩
  | _ => none

-- =============================================================== layers

/-- The layers that can be put around a stream. -/
inductive Layer where
  | lines
  | balance
  | buffer
deriving DecidableEq, Repr

/-- Puts a layer around a stream. A balance check brings its own line
counter. -/
def wrap (layer : Layer) (stream : Stream) : Stream :=
  match layer with
  | .lines => .lines {} stream
  | .balance => .balance {} (.lines {} stream)
  | .buffer => .buffer {} stream

/-- What the outermost layer is around. What it holds is lost with it. -/
def inner? : Stream → Option Stream
  | .lines _ inner | .balance _ inner | .buffer _ inner => some inner
  | .script _ | .tokenizer _ => none

end Stream

end LayeredLexer
