/-
What a token stream reports instead of a token. A failure is fatal: no
token follows it. A balance error and a misuse of the stream leave it
usable. Each error has its wording, its code, and the offset it points at
where there is one.
-/
import LayeredLexer.Source.Error
import LayeredLexer.Token

namespace LayeredLexer

/-- Why lexing ended before the end of the input, and where. -/
inductive LexFailure where
  /-- The source failed at this offset. -/
  | source (cause : SourceError) (offset : Nat)
  /-- The quote that starts here is never closed. -/
  | unterminatedQuote (offset : Nat)
  /-- The block comment that starts here is never closed. -/
  | unterminatedComment (offset : Nat)
deriving DecidableEq, Repr

/-- A fault in the nesting of delimiters. -/
inductive BalanceError where
  /-- A closing delimiter stands where none is open. -/
  | unexpectedCloser (found : Char) (offset : Nat)
  /-- A closing delimiter does not match the innermost open one. -/
  | mismatchedCloser (expected found : Char) (offset : Nat)
  /-- The input ends while a delimiter is open. -/
  | unclosedDelimiter (expected : Char)
deriving DecidableEq, Repr

/-- An error of a token stream. -/
inductive LexError where
  | failure (failure : LexFailure)
  | balance (error : BalanceError)
  /-- A token was asked for after the last one. -/
  | endOfInput
  /-- The token given back is not the one that was taken last. -/
  | invalidPushback (token : Token)
deriving DecidableEq, Repr

namespace LexFailure

def message : LexFailure → String
  | source cause offset => s!"{cause.message} (at offset {offset})"
  | unterminatedQuote offset => s!"Unterminated quote starting at offset {offset}"
  | unterminatedComment offset => s!"Unterminated comment starting at offset {offset}"

def code : LexFailure → Log.Code
  | source cause _ => cause.code
  | unterminatedQuote _ => .unterminatedQuote
  | unterminatedComment _ => .unterminatedComment

/-- The offset the failure points at. -/
def offset : LexFailure → Nat
  | source _ offset | unterminatedQuote offset | unterminatedComment offset => offset

end LexFailure

namespace BalanceError

def message : BalanceError → String
  | unexpectedCloser found _ => s!"unexpected '{found}'"
  | mismatchedCloser expected _ _ => s!"'{expected}' expected"
  | unclosedDelimiter expected => s!"'{expected}' expected"

def code : BalanceError → Log.Code
  | unexpectedCloser _ _ => .unexpectedCloser
  | mismatchedCloser _ _ _ => .mismatchedCloser
  | unclosedDelimiter _ => .unclosedDelimiter

/-- The offset of the closer at fault. -/
def offset? : BalanceError → Option Nat
  | unexpectedCloser _ offset | mismatchedCloser _ _ offset => some offset
  | unclosedDelimiter _ => none

end BalanceError

namespace LexError

def message : LexError → String
  | failure f => f.message
  | balance e => e.message
  | endOfInput => "Unexpected end of input"
  | invalidPushback token => s!"Cannot push back {token.display}: not the last token read"

def code : LexError → Log.Code
  | failure f => f.code
  | balance e => e.code
  | endOfInput => .endOfInput
  | invalidPushback _ => .invalidPushback

/-- Whether no token can follow the error. -/
def isFatal : LexError → Bool
  | failure _ => true
  | _ => false

/-- Whether the stream can go on after the error. -/
def isRecoverable (error : LexError) : Bool := !error.isFatal

/-- Whether the error is about the nesting of delimiters. -/
def isBalance : LexError → Bool
  | balance _ => true
  | _ => false

/-- The offset the error points at. -/
def offset? : LexError → Option Nat
  | failure f => some f.offset
  | balance e => e.offset?
  | invalidPushback token => some token.offset
  | endOfInput => none

end LexError

end LayeredLexer
