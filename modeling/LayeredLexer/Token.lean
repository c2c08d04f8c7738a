/-
Tokens: classified slices of a source text. The offset of a token counts
characters from the start of the source, and the texts of the tokens of a
source, put together, are the source again: nothing is skipped, so blanks
and comments are tokens too. They are the trivia.
-/
import LayeredLexer.Text.Quoted

namespace LayeredLexer

/-- The lexical class of a token. -/
inductive Kind where
  /-- An identifier-shaped run of characters. -/
  | word
  /-- A quoted literal with its quotes. -/
  | quote
  /-- Any other single character. -/
  | symbol
  /-- A line or block comment with its marks. -/
  | comment
  /-- A run of white space. -/
  | space
deriving DecidableEq, Repr

namespace Kind

def name : Kind → String
  | word => "WORD"
  | quote => "QUOTE"
  | symbol => "SYMBOL"
  | comment => "COMMENT"
  | space => "SPACE"

/-- The kind of a name. -/
def ofName? : String → Option Kind
  | "WORD" => some word
  | "QUOTE" => some quote
  | "SYMBOL" => some symbol
  | "COMMENT" => some comment
  | "SPACE" => some space
  | _ => none

/-- Blanks and comments carry no meaning. -/
def isTrivia : Kind → Bool
  | space | comment => true
  | _ => false

end Kind

/-- A classified slice of a source text. -/
structure Token where
  kind : Kind
  text : String
  offset : Nat
deriving DecidableEq, Repr

namespace Token

def isTrivia (token : Token) : Bool := token.kind.isTrivia

/-- The character of a token that has exactly one. -/
def character? (token : Token) : Option Char :=
  match token.text.toList with
  | [c] => some c
  | _ => none

/-- The number of line ends in the text. -/
def newlines (token : Token) : Nat := token.text.toList.count '\n'

/-- The token as messages show it. -/
def display (token : Token) : String :=
  token.kind.name ++ "(" ++ Quoted.quote token.text ++ ")@" ++ toString token.offset

end Token

end LayeredLexer
