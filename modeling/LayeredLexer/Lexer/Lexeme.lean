/-
The lexical grammar as an automaton. A lexeme is read one character at a
time; the phase says what has been seen of it, and the next character
either belongs to the lexeme, closes it, or is the first one that does
not belong to it. When the source ends or fails, the phase also says
whether what has been read is a lexeme already.

One run of the automaton over a source reads one lexeme. It takes back
nothing but the one character that showed that the lexeme was over.
-/
import LayeredLexer.Character.Blank
import LayeredLexer.Character.Identifier
import LayeredLexer.Source.CharSource
import LayeredLexer.Token

namespace LayeredLexer

/-- Whether `c` opens and closes quoted literals. -/
def isQuote (c : Char) : Bool := c == '"' || c == '\''

/-- What has been seen of a lexeme. -/
inductive Phase where
  /-- Nothing yet. -/
  | fresh
  /-- A slash, which may start a comment. -/
  | slash
  /-- Two slashes and no line end. -/
  | lineComment
  /-- An open block comment; `star` if its last character is a star that
  the next character could close it with. -/
  | blockComment (star : Bool)
  /-- An open quote. -/
  | quoted (delimiter : Char)
  /-- An open quote whose last character is a backslash that takes the
  next character verbatim. -/
  | escaped (delimiter : Char)
  /-- Identifier characters. -/
  | word
  /-- White space. -/
  | space
deriving DecidableEq, Repr

/-- What one more character does. -/
inductive Move where
  /-- It belongs to the lexeme, which goes on. -/
  | extend (next : Phase)
  /-- It belongs to the lexeme and is its last one. -/
  | close (kind : Kind)
  /-- It does not belong to the lexeme, which ended before it. -/
  | stop (kind : Kind)
deriving DecidableEq, Repr

namespace Phase

/-- The first character of a lexeme always belongs to it. -/
def start (c : Char) : Move :=
  if c = '/' then .extend slash
  else if isQuote c then .extend (quoted c)
  else if isIdentifierStart c then .extend word
  else if isBlank c then .extend space
  else .close .symbol

/-- The move for a character in any phase. -/
def move : Phase → Char → Move
  | fresh, c => start c
  | slash, c =>
    if c = '/' then .extend lineComment
    else if c = '*' then .extend (blockComment false)
    else .stop .symbol
  | lineComment, c => if c = '\n' then .close .comment else .extend lineComment
  | blockComment star, c =>
    if star && c == '/' then .close .comment else .extend (blockComment (c == '*'))
  | quoted delimiter, c =>
    if c = delimiter then .close .quote
    else if c = '\\' then .extend (escaped delimiter)
    else .extend (quoted delimiter)
  | escaped delimiter, _ => .extend (quoted delimiter)
  | word, c => if isIdentifierPart c then .extend word else .stop .word
  | space, c => if isBlank c then .extend space else .stop .space

/-- The kind of the lexeme if it may end in this phase. -/
def ending : Phase → Option Kind
  | slash => some .symbol
  | lineComment => some .comment
  | word => some .word
  | space => some .space
  | fresh | blockComment _ | quoted _ | escaped _ => none

end Phase

-- ============================================================ one run

/-- Why a run stopped. -/
inductive Stop where
  /-- The lexeme is complete. -/
  | complete (kind : Kind)
  /-- The source ended in this phase. -/
  | ended (phase : Phase)
  /-- The source failed in this phase. -/
  | failed (phase : Phase) (cause : SourceError)
deriving DecidableEq, Repr

/-- Where a run stopped: the characters of the lexeme, the reason, and the
source after them. -/
structure Reach where
  text : String
  stop : Stop
  source : CharSource
deriving Repr

/-- Runs the automaton from a phase in which `text` has been read. -/
def Phase.run (phase : Phase) (text : String) (source : CharSource) : Reach :=
  match _hnext : source.next with
  | (.error cause, rest) => ⟨text, .failed phase cause, rest⟩
  | (.ok none, rest) => ⟨text, .ended phase, rest⟩
  | (.ok (some c), rest) =>
    match phase.move c with
    | .extend next => next.run (text.push c) rest
    | .close kind => ⟨text.push c, .complete kind, rest⟩
    | .stop kind => ⟨text, .complete kind, rest.unread c⟩
termination_by source.size
decreasing_by exact CharSource.size_lt_of_next _hnext

end LayeredLexer
