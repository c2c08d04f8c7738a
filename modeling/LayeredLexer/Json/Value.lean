/-
JSON values and their text.

Two things that JSON text can hold have no counterpart among characters
and natural numbers, and the value type keeps them apart: a string that
names half of a surrogate pair has no characters (none), and a number
that is not a plain run of digits is kept as a decimal. Writing never
produces either from a value of the library.

There are two layouts. The compact one has no blanks; the indented one
puts each item and member on a line of its own, two blanks deeper than
its container, and writes empty containers as [] and without a line end.
-/

namespace LayeredLexer

/-- A JSON value. Members keep their order, and repeated keys are kept. -/
inductive Json where
  | null
  | bool (value : Bool)
  | natural (value : Nat)
  | decimal (negative : Bool) (significand : Nat) (exponent : Int)
  | string (text : Option String)
  | array (items : List Json)
  | object (members : List (Option String × Json))
deriving Repr

namespace Json

/-- A string value. -/
def text (s : String) : Json := .string (some s)

/-- An object whose keys are given as plain text. -/
def record (members : List (String × Json)) : Json :=
  .object (members.map fun (key, value) => (some key, value))

/-- A value that may be absent, null standing for its absence. -/
def orNull (value : Option Json) : Json := value.getD .null

-- =================================================== writing strings

/-- Two lowercase hexadecimal digits. -/
def hexPair (n : Nat) : String :=
  String.ofList [Nat.digitChar (n / 16 % 16), Nat.digitChar (n % 16)]

/-- How one character is written inside a JSON string. Only the quote,
the backslash and the controls below the blank are escaped. -/
def escape (c : Char) : String :=
  match c with
  | '"' => "\\\""
  | '\\' => "\\\\"
  | '\x08' => "\\b"
  | '\x0c' => "\\f"
  | '\n' => "\\n"
  | '\r' => "\\r"
  | '\t' => "\\t"
  | c => if c.toNat < 0x20 then "\\u00" ++ hexPair c.toNat else c.toString

/-- A string between its quotes. -/
def quote (s : String) : String :=
  s.toList.foldl (fun written c => written ++ escape c) "\"" ++ "\""

/-- A string value; one without characters is written as half a pair. -/
def writeString : Option String → String
  | some s => quote s
  | none => "\"\\ud800\""

/-- A decimal; a negative whole number needs no exponent. -/
def writeDecimal (negative : Bool) (significand : Nat) (exponent : Int) : String :=
  let digits := toString significand
  if negative then
    if exponent = 0 then "-" ++ digits else "-" ++ digits ++ "e" ++ toString exponent
  else digits ++ "e" ++ toString exponent

-- ===================================================== writing values

/-- How a value is laid out: on one line without blanks, or indented, the
number being the depth of the container that is written. -/
inductive Layout where
  | compact
  | indented (depth : Nat)
deriving DecidableEq, Repr

namespace Layout

/-- The layout of what a container holds. -/
def deeper : Layout → Layout
  | compact => compact
  | indented depth => indented (depth + 1)

/-- Starts the line of an item or of a closing bracket. -/
def lineBreak : Layout → String
  | compact => ""
  | indented depth => (List.replicate depth "  ").foldl (· ++ ·) "\n"

/-- What separates a key from its value. -/
def colon : Layout → String
  | compact => ":"
  | indented _ => ": "

end Layout

mutual

/-- Writes a value behind `out`. -/
def write (layout : Layout) (out : String) : Json → String
  | .null => out ++ "null"
  | .bool value => out ++ (if value then "true" else "false")
  | .natural value => out ++ toString value
  | .decimal negative significand exponent => out ++ writeDecimal negative significand exponent
  | .string s => out ++ writeString s
  | .array [] => out ++ "[]"
  | .array (item :: items) =>
    let first := write layout.deeper (out ++ "[" ++ layout.deeper.lineBreak) item
    writeItems layout.deeper first items ++ layout.lineBreak ++ "]"
  | .object [] => out ++ "\x7b\x7d"
  | .object ((key, value) :: members) =>
    let start := out ++ "\x7b" ++ layout.deeper.lineBreak
    let first := write layout.deeper (start ++ writeString key ++ layout.colon) value
    writeMembers layout.deeper first members ++ layout.lineBreak ++ "\x7d"

/-- Writes the items after the first. -/
def writeItems (layout : Layout) (out : String) : List Json → String
  | [] => out
  | item :: items =>
    writeItems layout (write layout (out ++ "," ++ layout.lineBreak) item) items

/-- Writes the members after the first. -/
def writeMembers (layout : Layout) (out : String) : List (Option String × Json) → String
  | [] => out
  | (key, value) :: members =>
    let start := out ++ "," ++ layout.lineBreak
    writeMembers layout (write layout (start ++ writeString key ++ layout.colon) value) members

end

/-- The text of a value on one line. -/
def compact (value : Json) : String := write .compact "" value

/-- The text of a value with one item or member a line. -/
def pretty (value : Json) : String := write (.indented 0) "" value

end Json

end LayeredLexer
