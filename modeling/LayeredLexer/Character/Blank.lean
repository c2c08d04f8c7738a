/-
White space: the twenty-five code points that Unicode gives the property
White_Space. Runs of them become SPACE tokens.
-/
import LayeredLexer.Character.Ranges

namespace LayeredLexer

/-- The ranges of White_Space, in ascending order. -/
def blankRanges : Ranges := [
  (0x9, 0xD), (0x20, 0x20), (0x85, 0x85), (0xA0, 0xA0), (0x1680, 0x1680), (0x2000, 0x200A),
  (0x2028, 0x2029), (0x202F, 0x202F), (0x205F, 0x205F), (0x3000, 0x3000) ]

/-- Whether `c` is white space. -/
def isBlank (c : Char) : Bool :=
  blankRanges.contains c.toNat

end LayeredLexer
