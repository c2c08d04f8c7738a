/-
Numbers, dates and times of TOML. A number is judged as a whole: the run
of characters that may stand in one has to be an integer or a floating
point number from its first to its last character. Integers must fit into
64 bits with a sign.
-/
import LayeredLexer.Toml.Text
import LayeredLexer.Toml.Value

namespace LayeredLexer.Toml

-- =========================================================== integers

/-- The number that digits of a base spell, single underscores between
digits being passed over. `ready` says whether an underscore may come. -/
def digitRun? (base : Nat) (ready : Bool) (n : Nat) : List Char → Option Nat
  | [] => if ready then some n else none
  | '_' :: rest => if ready then digitRun? base false n rest else none
  | c :: rest =>
    match hexValue? c with
    | some d => if d < base then digitRun? base true (n * base + d) rest else none
    | none => none

/-- The number that decimal digits without a leading zero spell. -/
def wholeNumber? : List Char → Option Nat
  | '0' :: [] => some 0
  | '0' :: _ => none
  | text => digitRun? 10 false 0 text

/-- Whether an integer fits into 64 bits with a sign. -/
def fitsWord (n : Int) : Bool := -9223372036854775808 ≤ n && n ≤ 9223372036854775807

/-- The sign in front of a number, and the rest. -/
def splitSign : List Char → Bool × List Char
  | '-' :: rest => (true, rest)
  | '+' :: rest => (false, rest)
  | text => (false, text)

/-- An integer: decimal with or without a sign, or with the mark of
another base and no sign. -/
def integer? (text : List Char) : Option Int := do
  let n ← match text with
    | '0' :: 'x' :: rest => (digitRun? 16 false 0 rest).map Int.ofNat
    | '0' :: 'o' :: rest => (digitRun? 8 false 0 rest).map Int.ofNat
    | '0' :: 'b' :: rest => (digitRun? 2 false 0 rest).map Int.ofNat
    | _ =>
      let (negative, rest) := splitSign text
      (wholeNumber? rest).map fun n => if negative then -(n : Int) else n
  if fitsWord n then some n else none

-- ===================================================== floating point

/-- Whether `c` marks an exponent. -/
def isExponentMark (c : Char) : Bool := c == 'e' || c == 'E'

/-- Whether a text is a floating point number: a whole number with a
fraction, an exponent, or both. A number that is too great is none; one
that is too small to have a value, too far below zero, is one. -/
def isFloat (text : List Char) : Bool :=
  let (negative, unsigned) := splitSign text
  if unsigned = ['i', 'n', 'f'] || unsigned = ['n', 'a', 'n'] then true
  else
    let mantissa := unsigned.takeWhile (!isExponentMark ·)
    let marked := unsigned.dropWhile (!isExponentMark ·)
    let whole := mantissa.takeWhile (· != '.')
    let pointed := mantissa.dropWhile (· != '.')
    let places := (pointed.drop 1).filter (· != '_')
    let fraction? := if pointed.isEmpty then some 0 else digitRun? 10 false 0 (pointed.drop 1)
    let (small, power) := splitSign (marked.drop 1)
    let exponent? := if marked.isEmpty then some 0 else digitRun? 10 false 0 power
    match wholeNumber? whole, fraction?, exponent? with
    | some n, some fraction, some e =>
      let exponent : Int := (if small then -(e : Int) else e) - places.length
      !(pointed.isEmpty && marked.isEmpty)
        && (negative || isFiniteDecimal (n * Nat.pow 10 places.length + fraction) exponent)
    | _, _, _ => false

-- ==================================================== dates and times

/-- A number of exactly `count` digits, at most `high` and at least `low`. -/
def fixedDigits (count low high : Nat) : Parser Nat := fun text => do
  let digits := text.take count
  if digits.length = count then
    let n ← decimalValue? digits
    if low ≤ n && n ≤ high then some (n, text.drop count) else none
  else none

/-- One given character. -/
def mark (c : Char) : Parser Unit
  | d :: rest => if c = d then some ((), rest) else none
  | [] => none

/-- A number with zeros in front of it up to a width. -/
def zeroPadded (width n : Nat) : String :=
  let digits := toString n
  String.ofList (List.replicate (width - digits.length) '0') ++ digits

/-- The number of days of a month. -/
def daysOf (year month : Nat) : Nat :=
  if month = 2 then
    if year % 4 = 0 && (year % 100 != 0 || year % 400 = 0) then 29 else 28
  else if month = 4 || month = 6 || month = 9 || month = 11 then 30
  else 31

/-- A date, in its normal form. -/
def date : Parser String := fun text => do
  let (year, text) ← fixedDigits 4 0 9999 text
  let (_, text) ← mark '-' text
  let (month, text) ← fixedDigits 2 1 12 text
  let (_, text) ← mark '-' text
  let (day, text) ← fixedDigits 2 1 (daysOf year month) text
  some (zeroPadded 4 year ++ "-" ++ zeroPadded 2 month ++ "-" ++ zeroPadded 2 day, text)

/-- The places of a second, nine at most, without zeros at the end. -/
def secondPlaces (digits : List Char) : String :=
  match ((digits.take 9).reverse.dropWhile (· == '0')).reverse with
  | [] => ""
  | shown => "." ++ String.ofList shown

/-- A time of day, in its normal form. -/
def time : Parser String := fun text => do
  let (hour, text) ← fixedDigits 2 0 23 text
  let (_, text) ← mark ':' text
  let (minute, text) ← fixedDigits 2 0 59 text
  let (_, text) ← mark ':' text
  let (second, text) ← fixedDigits 2 0 60 text
  let (places, text) ← match text with
    | '.' :: rest =>
      match rest.takeWhile Char.isDigit with
      | [] => none
      | digits => some (secondPlaces digits, rest.dropWhile Char.isDigit)
    | text => some ("", text)
  some (zeroPadded 2 hour ++ ":" ++ zeroPadded 2 minute ++ ":" ++ zeroPadded 2 second ++ places,
    text)

/-- The distance of a time zone, in its normal form; none may be given.
No distance at all is neither ahead nor behind and is written with a plus. -/
def zone : Parser String := fun text =>
  match text with
  | 'Z' :: rest | 'z' :: rest => some ("Z", rest)
  | c :: rest =>
    if c = '+' || c = '-' then do
      let (hour, rest) ← fixedDigits 2 0 23 rest
      let (_, rest) ← mark ':' rest
      let (minute, rest) ← fixedDigits 2 0 59 rest
      let sign := if hour = 0 && minute = 0 then "+" else c.toString
      some (sign ++ zeroPadded 2 hour ++ ":" ++ zeroPadded 2 minute, rest)
    else some ("", c :: rest)
  | [] => some ("", [])

/-- A time of day behind a date, with its zone. -/
def timeBehind : Parser String := fun text =>
  match text with
  | c :: rest =>
    if c = 'T' || c = 't' || c = ' ' then do
      let (clock, rest) ← time rest
      let (offset, rest) ← zone rest
      some ("T" ++ clock ++ offset, rest)
    else none
  | [] => none

/-- A date, a date with a time, or a time, in its normal form. -/
def datetime : Parser String := fun text =>
  match date text with
  | some (day, rest) =>
    match timeBehind rest with
    | some (clock, rest) => some (day ++ clock, rest)
    | none => some (day, rest)
  | none => time text

-- ============================================================ numbers

/-- Whether `c` may stand in a number. -/
def isNumberCharacter (c : Char) : Bool :=
  isBareKey c || c == '+' || c == '.'

/-- A number, a date or a time. -/
def number : Parser Value := fun text =>
  match datetime text with
  | some (shown, rest) => some (.datetime shown, rest)
  | none =>
    let run := text.takeWhile isNumberCharacter
    let rest := text.dropWhile isNumberCharacter
    if isFloat run then some (.float, rest)
    else (integer? run).map fun n => (.integer n, rest)

end LayeredLexer.Toml
