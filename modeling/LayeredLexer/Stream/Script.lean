/-
A scripted token source: a list of tokens and errors that are delivered
in order. It stands where a tokenizer could and lets the layers above be
driven through any sequence of tokens and errors. A look at an error takes it
off the script and remembers it; a token stays until it is taken.
-/
import LayeredLexer.Lexer.Error

namespace LayeredLexer

/-- The rest of a script, the number of tokens taken from it, and the
error it raised last. -/
structure Script where
  items : List (Except LexError Token)
  taken : Nat := 0
  error : Option LexError := none

namespace Script

/-- Looks at the next item. -/
def peek (script : Script) : Except LexError (Option Token) × Script :=
  match script.items with
  | [] => (.ok none, script)
  | .ok token :: _ => (.ok (some token), script)
  | .error error :: rest => (.error error, { script with items := rest, error := some error })

/-- Takes the token in front. -/
def drop (script : Script) : Script :=
  match script.items with
  | .ok _ :: rest => { script with items := rest, taken := script.taken + 1 }
  | _ => script

end Script

end LayeredLexer
