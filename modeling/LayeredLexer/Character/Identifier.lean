/-
Identifier characters and identifiers. The lexer forms WORD tokens from
them and rule patterns are made of them, so both sides share the two
character classes of this file: what may come first, and what may follow.
-/
import LayeredLexer.Character.IdentifierTable

namespace LayeredLexer

/-- Whether `c` may be the first character of an identifier: an
underscore, a dollar sign, or an XID_Start character. -/
def isIdentifierStart (c : Char) : Bool :=
  c == '_' || c == '$' || xidStartRanges.contains c.toNat

/-- Whether `c` may follow the first character of an identifier: a
dollar sign or an XID_Continue character (the underscore is one). -/
def isIdentifierPart (c : Char) : Bool :=
  c == '$' || xidContinueRanges.contains c.toNat

/-- Whether the characters are one whole identifier. The empty text is
none. -/
def isIdentifier : List Char → Bool
  | [] => false
  | c :: rest => isIdentifierStart c && rest.all isIdentifierPart

end LayeredLexer
