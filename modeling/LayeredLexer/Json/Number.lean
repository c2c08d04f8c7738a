/-
The range of the numbers that are held in memory. Such a number has the
floating point value of its leading digits, those that fit into a word,
times a power of ten. Both factors and their product are rounded to the
nearest floating point number, so a number whose product reaches the
bound is out of range even where the number itself is just below it.
-/
import LayeredLexer.Text.Digit

namespace LayeredLexer.Json

/-- The greatest count: what an unsigned word of 64 bits holds. -/
def maxCount : Nat := 18446744073709551615

/-- The leading digits of a decimal that fit into a word, with the power
of ten that makes up for the digits left out. -/
def leadingWord (significand : Nat) (exponent : Int) : Nat × Int :=
  if significand ≤ maxCount then (significand, exponent)
  else leadingWord (significand / 10) (exponent + 1)
termination_by significand
decreasing_by simp only [maxCount] at *; omega

/-- The floating point number nearest to a natural number: 53 binary
digits and zeros behind them. Of two that are as near, the one whose last
digit of the 53 is zero. -/
def nearestDouble (n : Nat) : Nat :=
  let unit := Nat.pow 2 (Nat.log2 n - 52)
  let quotient := n / unit
  let double := 2 * (n % unit)
  if unit < double || (double = unit && quotient % 2 = 1) then (quotient + 1) * unit
  else quotient * unit

/-- Whether a number is within the range of those that are held. Nothing
is too small: a negative power of ten makes no word too great. -/
def isInRange (significand : Nat) (exponent : Int) : Bool :=
  match leadingWord significand exponent with
  | (0, _) | (_, .negSucc _) => true
  | (word, .ofNat power) =>
    power ≤ 308 && nearestDouble word * nearestDouble (Nat.pow 10 power) < decimalBound

end LayeredLexer.Json
