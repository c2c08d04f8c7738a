/-
Line counting. The line grows by the line ends inside the blanks and
comments that pass, as soon as they are pulled, so it is the line reached
behind the token that was pulled last. Line ends inside quotes do not
count. The count stays at its greatest value once it has reached it.
-/
import LayeredLexer.Token

namespace LayeredLexer

/-- The greatest line number. -/
def maxLine : Nat := 4294967295

/-- The line ends that a token adds to the count of lines. -/
def Token.lineEnds (token : Token) : Nat :=
  if token.isTrivia then min token.newlines maxLine else 0

/-- The state of a line counter: the token it has pulled and not
delivered, and the line reached behind it. -/
structure LineCount where
  pending : Option Token := none
  line : Nat := 1
deriving DecidableEq, Repr

/-- Counts a token that is pulled, and holds it. -/
def LineCount.receive (count : LineCount) (token : Token) : LineCount :=
  ⟨some token, min (count.line + token.lineEnds) maxLine⟩

end LayeredLexer
