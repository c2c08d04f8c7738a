/-
Nesting of the delimiters ( ), [ ] and { } among SYMBOL tokens. An opener
is put on a stack. A closer takes the innermost opener off and must match
it; one that does not, or that finds the stack empty, is an error, and the
closer is delivered all the same, unchecked. At the end of the input every
request takes one opener off and reports it, until none is open.
-/
import LayeredLexer.Lexer.Error
import LayeredLexer.Log.Event

namespace LayeredLexer

/-- The kinds of delimiters. -/
inductive Bracket where
  | round
  | square
  | curly
deriving DecidableEq, Repr

namespace Bracket

def opener : Bracket → Char
  | round => '('
  | square => '['
  | curly => '\x7b'

def closer : Bracket → Char
  | round => ')'
  | square => ']'
  | curly => '\x7d'

/-- The kind of an opening delimiter. -/
def ofOpener? (c : Char) : Option Bracket :=
  if c = round.opener then some round
  else if c = square.opener then some square
  else if c = curly.opener then some curly
  else none

/-- The kind of a closing delimiter. -/
def ofCloser? (c : Char) : Option Bracket :=
  if c = round.closer then some round
  else if c = square.closer then some square
  else if c = curly.closer then some curly
  else none

end Bracket

/-- The state of a balance check: the token it has pulled and not
delivered, the open delimiters, innermost first, and the error it raised
last. -/
structure Nesting where
  pending : Option Token := none
  opened : List Bracket := []
  error : Option BalanceError := none
deriving DecidableEq, Repr

namespace Nesting

/-- The opened delimiters after a character, and what is wrong with it. -/
def check (opened : List Bracket) (c : Char) (offset : Nat) : List Bracket × Option BalanceError :=
  match Bracket.ofOpener? c with
  | some bracket => (bracket :: opened, none)
  | none =>
    match Bracket.ofCloser? c with
    | none => (opened, none)
    | some closed =>
      match opened with
      | [] => ([], some (.unexpectedCloser c offset))
      | innermost :: outer =>
        if innermost = closed then (outer, none)
        else (outer, some (.mismatchedCloser innermost.closer c offset))

/-- The delimiter that a token is, if it is a single symbol. -/
def symbol? (token : Token) : Option Char :=
  if token.kind = .symbol then token.character? else none

/-- Checks a token that is pulled, and holds it. -/
def receive (nesting : Nesting) (token : Token) : Nesting × Option BalanceError :=
  match symbol? token with
  | none => ({ nesting with pending := some token }, none)
  | some c =>
    let (opened, error) := check nesting.opened c token.offset
    (⟨some token, opened, error.or nesting.error⟩, error)

/-- Takes the innermost opener off at the end of the input. -/
def close (nesting : Nesting) : Nesting × Option BalanceError :=
  match nesting.opened with
  | [] => (nesting, none)
  | innermost :: outer =>
    let error := BalanceError.unclosedDelimiter innermost.closer
    ({ nesting with opened := outer, error := some error }, some error)

/-- The event of a balance error, found when the stream below had reached
this offset and line. The depth is that after the error. -/
def report (nesting : Nesting) (error : BalanceError) (offset line : Nat) : Log.Event :=
  ((Log.Event.error error.code error.message).located (error.offset?.getD offset) (some line)).noting
    "depth" (toString nesting.opened.length)

end Nesting

end LayeredLexer
