/-
Digits and the numbers they spell, and the bound within which a decimal
has a finite floating point value.
-/

namespace LayeredLexer

/-- The value of a decimal digit. -/
def digitValue? (c : Char) : Option Nat :=
  if '0' ≤ c ∧ c ≤ '9' then some (c.toNat - '0'.toNat) else none

/-- The value of a hexadecimal digit. -/
def hexValue? (c : Char) : Option Nat :=
  if '0' ≤ c ∧ c ≤ '9' then some (c.toNat - '0'.toNat)
  else if 'a' ≤ c ∧ c ≤ 'f' then some (c.toNat - 'a'.toNat + 10)
  else if 'A' ≤ c ∧ c ≤ 'F' then some (c.toNat - 'A'.toNat + 10)
  else none

/-- The number that decimal digits spell. -/
def decimalValue? (digits : List Char) : Option Nat :=
  digits.foldlM (fun n c => (digitValue? c).map (n * 10 + ·)) 0

/-- The number that hexadecimal digits spell. -/
def hexadecimalValue? (digits : List Char) : Option Nat :=
  digits.foldlM (fun n c => (hexValue? c).map (n * 16 + ·)) 0

/-- The character whose code point hexadecimal digits spell. Surrogates
and numbers beyond the last code point are none. -/
def codePoint? (digits : List Char) : Option Char := do
  let n ← hexadecimalValue? digits
  if n.isValidChar then some (Char.ofNat n) else none

/-- The first number too great for the floating point numbers that stand
for decimals: half a step above the greatest one. -/
def decimalBound : Nat := Nat.pow 2 1024 - Nat.pow 2 970

/-- Whether a decimal is within the floating point numbers. The number of
its digits decides unless it is close to the bound. -/
def isFiniteDecimal (significand : Nat) (exponent : Int) : Bool :=
  let digits : Int := (Nat.toDigits 10 significand).length
  if significand = 0 || digits + exponent < 300 then true
  else if 320 < digits + exponent then false
  else if 0 ≤ exponent then significand * Nat.pow 10 exponent.toNat < decimalBound
  else significand < decimalBound * Nat.pow 10 (-exponent).toNat

end LayeredLexer
