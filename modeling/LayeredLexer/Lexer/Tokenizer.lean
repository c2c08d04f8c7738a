/-
The tokenizer: a source of characters seen as a sequence of tokens. It
reads one lexeme at a time, when a token is first asked for, and holds
the token until it is taken.

The end of the input is found once and then stays. So does a failure: the
tokenizer answers every later request with it. A source failure that cuts
a word, a run of blanks, a line comment or a lone slash short leaves the
token whole; it is held back until that token has been taken, and then
raised. Inside a quote or a block comment it is raised at once.
-/
import LayeredLexer.Lexer.Error
import LayeredLexer.Lexer.Lexeme
import LayeredLexer.Log.Event

namespace LayeredLexer

/-- What a tokenizer has in front. -/
inductive Front where
  /-- Nothing is lexed yet. -/
  | unread
  /-- This token, which has not been taken. -/
  | held (token : Token)
  /-- The end of the input. -/
  | ended
  /-- The failure that lexing ended with. -/
  | failed (failure : LexFailure)
deriving DecidableEq, Repr

/-- A tokenizer over a source. The offset counts the characters it has
taken from the source and not given back. -/
structure Tokenizer where
  source : CharSource
  offset : Nat
  front : Front
  /-- A source failure that waits for the token it cut short. -/
  deferred : Option SourceError
deriving Repr

namespace Tokenizer

/-- The tokenizer at the start of a source. -/
def ofSource (source : CharSource) : Tokenizer := ⟨source, 0, .unread, none⟩

/-- The failure that lexing ended with. -/
def failure? (tokenizer : Tokenizer) : Option LexFailure :=
  match tokenizer.front with
  | .failed failure => some failure
  | _ => none

/-- The failure of a lexeme from `offset` that the input ends in. -/
def unterminated (phase : Phase) (offset : Nat) : LexFailure :=
  match phase with
  | .quoted _ | .escaped _ => .unterminatedQuote offset
  | _ => .unterminatedComment offset

/-- Holds a token that was read from the current offset. -/
def hold (tokenizer : Tokenizer) (kind : Kind) (reach : Reach) (deferred : Option SourceError) :
    Tokenizer :=
  ⟨reach.source, tokenizer.offset + reach.text.length,
    .held ⟨kind, reach.text, tokenizer.offset⟩, deferred⟩

/-- Ends lexing with a failure, at the offset that was reached. -/
def fail (tokenizer : Tokenizer) (reach : Reach) (failure : LexFailure) : Tokenizer :=
  ⟨reach.source, tokenizer.offset + reach.text.length, .failed failure, none⟩

/-- Reads one lexeme. -/
def lex (tokenizer : Tokenizer) : Tokenizer :=
  let start := tokenizer.offset
  let reach := Phase.fresh.run "" tokenizer.source
  match reach.stop with
  | .complete kind => tokenizer.hold kind reach none
  | .ended .fresh => { tokenizer with source := reach.source, front := .ended }
  | .ended phase =>
    match phase.ending with
    | some kind => tokenizer.hold kind reach none
    | none => tokenizer.fail reach (unterminated phase start)
  | .failed phase cause =>
    match phase.ending with
    | some kind => tokenizer.hold kind reach (some cause)
    | none => tokenizer.fail reach (.source cause (start + reach.text.length))

/-- Finds out what is in front: a failure that was held back, or what
the next lexeme makes of it. -/
def advance (tokenizer : Tokenizer) : Tokenizer :=
  match tokenizer.deferred with
  | some cause =>
    { tokenizer with front := .failed (.source cause tokenizer.offset), deferred := none }
  | none => tokenizer.lex

/-- What is logged when the front is found to be the end or a failure. -/
def report (tokenizer : Tokenizer) : List Log.Event :=
  match tokenizer.front with
  | .ended => [(Log.Event.debug "End of input reached").noting "offset" (toString tokenizer.offset)]
  | .failed failure =>
    [(Log.Event.error failure.code failure.message).located failure.offset none]
  | _ => []

/-- What the front answers to a look at the next token. -/
def look (tokenizer : Tokenizer) : Except LexError (Option Token) :=
  match tokenizer.front with
  | .held token => .ok (some token)
  | .failed failure => .error (.failure failure)
  | _ => .ok none

/-- Looks at the next token, and logs the end or a failure when it
is found. -/
def peek (tokenizer : Tokenizer) :
    Except LexError (Option Token) × Tokenizer × List Log.Event :=
  match tokenizer.front with
  | .unread =>
    let next := tokenizer.advance
    (next.look, next, next.report)
  | _ => (tokenizer.look, tokenizer, [])

/-- Takes the token that is held. -/
def drop (tokenizer : Tokenizer) : Tokenizer :=
  match tokenizer.front with
  | .held _ => { tokenizer with front := .unread }
  | _ => tokenizer

end Tokenizer

end LayeredLexer
