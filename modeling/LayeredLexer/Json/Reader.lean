/-
Reading JSON text. The reader takes one character at a time. Between two
characters it knows the containers that are open, innermost first, with
what they hold so far, and what may come next: a value, a key, a colon,
what follows a value, or the rest of a string, a number or a word. Reading
a text is one pass of it over the characters, so it needs no recursion of
its own and no bound on the depth of the text.

Keys that are repeated are all kept, in the order of the text.
-/
import LayeredLexer.Json.Value
import LayeredLexer.Text.Digit

namespace LayeredLexer.Json

-- ============================================================ strings

/-- What has been read of an escape. -/
inductive EscapeRead where
  | outside
  /-- Behind a backslash. -/
  | opened
  /-- Behind this many of four hexadecimal digits. -/
  | digits (count value : Nat)
deriving DecidableEq, Repr

/-- A string that is being read: its characters, none once half of a
surrogate pair stood alone; the first half of a pair that waits for the
second one; and where the reader is in an escape. -/
structure StringRead where
  text : Option String := some ""
  half : Option Nat := none
  escape : EscapeRead := .outside
deriving DecidableEq, Repr

namespace StringRead

/-- Adds a character. A half of a pair that waits is lost with it. -/
def add (s : StringRead) (c : Char) : StringRead :=
  match s.half with
  | some _ => ⟨none, none, .outside⟩
  | none => ⟨s.text.map (·.push c), none, .outside⟩

/-- Adds a unit of sixteen bits. -/
def addUnit (s : StringRead) (unit : Nat) : StringRead :=
  let isHigh := 0xD800 ≤ unit && unit < 0xDC00
  let isLow := 0xDC00 ≤ unit && unit < 0xE000
  match s.half with
  | some high =>
    if isLow then
      let point := 0x10000 + (high - 0xD800) * 0x400 + (unit - 0xDC00)
      ⟨s.text.map (·.push (Char.ofNat point)), none, .outside⟩
    else ⟨none, none, .outside⟩
  | none =>
    if isHigh then ⟨s.text, some unit, .outside⟩
    else if isLow then ⟨none, none, .outside⟩
    else ⟨s.text.map (·.push (Char.ofNat unit)), none, .outside⟩

/-- The characters of the string when it closes. -/
def result (s : StringRead) : Option String :=
  match s.half with
  | some _ => none
  | none => s.text

end StringRead

/-- The character that a letter behind a backslash stands for. -/
def unescape? : Char → Option Char
  | '"' => some '"'
  | '\\' => some '\\'
  | '/' => some '/'
  | 'b' => some '\x08'
  | 'f' => some '\x0c'
  | 'n' => some '\n'
  | 'r' => some '\r'
  | 't' => some '\t'
  | _ => none

-- ============================================================ numbers

/-- The part of a number that has been read last. -/
inductive NumberPlace where
  | sign
  | zero
  | whole
  | point
  | fraction
  | exponent
  | exponentSign
  | exponentDigits
deriving DecidableEq, Repr

/-- A number that is being read. The significand holds all digits of the
mantissa, and `places` counts those behind the point. -/
structure NumberRead where
  negative : Bool
  significand : Nat
  places : Nat := 0
  exponentNegative : Bool := false
  exponent : Nat := 0
  place : NumberPlace
deriving DecidableEq, Repr

namespace NumberRead

/-- The number that a character begins. -/
def start? (c : Char) : Option NumberRead :=
  if c = '-' then some { negative := true, significand := 0, place := .sign }
  else
    match digitValue? c with
    | some 0 => some { negative := false, significand := 0, place := .zero }
    | some d => some { negative := false, significand := d, place := .whole }
    | none => none

/-- A digit in the number, if one may stand here. -/
def digit? (n : NumberRead) (d : Nat) : Option NumberRead :=
  match n.place with
  | .sign => some { n with significand := d, place := if d = 0 then .zero else .whole }
  | .zero => none
  | .whole => some { n with significand := n.significand * 10 + d }
  | .point | .fraction =>
    some { n with
      significand := n.significand * 10 + d, places := n.places + 1, place := .fraction }
  | .exponent | .exponentSign | .exponentDigits =>
    some { n with exponent := n.exponent * 10 + d, place := .exponentDigits }

/-- One more character of the number, if it continues it. -/
def step? (n : NumberRead) (c : Char) : Option NumberRead :=
  match digitValue? c with
  | some d => n.digit? d
  | none =>
    match n.place, c with
    | .zero, '.' | .whole, '.' => some { n with place := .point }
    | .zero, 'e' | .zero, 'E' | .whole, 'e' | .whole, 'E' | .fraction, 'e' | .fraction, 'E' =>
      some { n with place := .exponent }
    | .exponent, '+' => some { n with place := .exponentSign }
    | .exponent, '-' => some { n with place := .exponentSign, exponentNegative := true }
    | _, _ => none

/-- The value of the number if it may end here. -/
def result? (n : NumberRead) : Option Json :=
  let exponent : Int := if n.exponentNegative then -n.exponent else n.exponent
  let decimal := Json.decimal n.negative n.significand (exponent - n.places)
  match n.place with
  | .zero | .whole => some (if n.negative then decimal else .natural n.significand)
  | .fraction | .exponentDigits => some decimal
  | .sign | .point | .exponent | .exponentSign => none

end NumberRead

-- ============================================================= reader

/-- A container that is open, with what it holds, the last one first. -/
inductive Frame where
  | array (items : List Json)
  | object (members : List (Option String × Json))
  /-- An object in which the value of this key is being read. -/
  | member (members : List (Option String × Json)) (key : Option String)

/-- What may come next. -/
inductive Expected where
  | value
  /-- A value, or the end of an array that has just been opened. -/
  | item
  /-- A key, or the end of an object that has just been opened. -/
  | member
  | key
  | colon (key : Option String)
  /-- What follows a value in a container. -/
  | separator
  /-- Nothing: the text was this value. -/
  | nothing (value : Json)
  | string (isKey : Bool) (read : StringRead)
  | number (read : NumberRead)
  /-- The rest of a word that stands for a value. -/
  | word (rest : List Char) (value : Json)

/-- The state of a reader. -/
structure Reader where
  frames : List Frame
  expected : Expected

namespace Reader

/-- Before the first character. -/
def initial : Reader := ⟨[], .value⟩

/-- A value is complete. -/
def put (frames : List Frame) (value : Json) : Option Reader :=
  match frames with
  | [] => some ⟨[], .nothing value⟩
  | .array items :: outer => some ⟨.array (value :: items) :: outer, .separator⟩
  | .member members key :: outer =>
    some ⟨.object ((key, value) :: members) :: outer, .separator⟩
  | .object _ :: _ => none

/-- The innermost container closes. -/
def close (frames : List Frame) (c : Char) : Option Reader :=
  match frames, c with
  | .array items :: outer, ']' => put outer (.array items.reverse)
  | .object members :: outer, '\x7d' => put outer (.object members.reverse)
  | _, _ => none

/-- A value begins. -/
def open? (frames : List Frame) (c : Char) : Option Reader :=
  match c with
  | '[' => some ⟨.array [] :: frames, .item⟩
  | '\x7b' => some ⟨.object [] :: frames, .member⟩
  | '"' => some ⟨frames, .string false {}⟩
  | 'n' => some ⟨frames, .word ['u', 'l', 'l'] .null⟩
  | 't' => some ⟨frames, .word ['r', 'u', 'e'] (.bool true)⟩
  | 'f' => some ⟨frames, .word ['a', 'l', 's', 'e'] (.bool false)⟩
  | c => (NumberRead.start? c).map fun number => ⟨frames, .number number⟩

/-- Blanks between the parts of a text. -/
def isSpacing (c : Char) : Bool := c == ' ' || c == '\n' || c == '\t' || c == '\r'

/-- A character outside strings, numbers and words. -/
def between (frames : List Frame) (expected : Expected) (c : Char) : Option Reader :=
  if isSpacing c then some ⟨frames, expected⟩
  else
    match expected with
    | .value => open? frames c
    | .item => if c = ']' then close frames c else open? frames c
    | .member =>
      if c = '"' then some ⟨frames, .string true {}⟩ else close frames c
    | .key => if c = '"' then some ⟨frames, .string true {}⟩ else none
    | .colon key =>
      match frames, c with
      | .object members :: outer, ':' => some ⟨.member members key :: outer, .value⟩
      | _, _ => none
    | .separator =>
      match frames, c with
      | .array _ :: _, ',' => some ⟨frames, .value⟩
      | .object _ :: _, ',' => some ⟨frames, .key⟩
      | _, _ => close frames c
    | _ => none

/-- A character of a string. -/
def inString (frames : List Frame) (isKey : Bool) (read : StringRead) (c : Char) : Option Reader :=
  match read.escape with
  | .outside =>
    if c = '"' then
      if isKey then some ⟨frames, .colon read.result⟩ else put frames (.string read.result)
    else if c = '\\' then some ⟨frames, .string isKey { read with escape := .opened }⟩
    else if c.toNat < 0x20 then none
    else some ⟨frames, .string isKey (read.add c)⟩
  | .opened =>
    if c = 'u' then some ⟨frames, .string isKey { read with escape := .digits 0 0 }⟩
    else (unescape? c).map fun plain => ⟨frames, .string isKey (read.add plain)⟩
  | .digits count value =>
    (hexValue? c).map fun d =>
      let value := value * 16 + d
      if count < 3 then ⟨frames, .string isKey { read with escape := .digits (count + 1) value }⟩
      else ⟨frames, .string isKey (read.addUnit value)⟩

/-- One character. A character that does not continue a number ends it and
is read as what comes behind it. -/
def step (reader : Reader) (c : Char) : Option Reader :=
  match reader.expected with
  | .string isKey read => inString reader.frames isKey read c
  | .number read =>
    match read.step? c with
    | some read => some { reader with expected := .number read }
    | none =>
      match read.result?.bind (put reader.frames) with
      | some next => between next.frames next.expected c
      | none => none
  | .word (letter :: rest) value =>
    if c = letter then
      match rest with
      | [] => put reader.frames value
      | rest => some { reader with expected := .word rest value }
    else none
  | expected => between reader.frames expected c

/-- The value that was read when the text ends. -/
def result? (reader : Reader) : Option Json :=
  match reader.frames, reader.expected with
  | [], .nothing value => some value
  | [], .number read => read.result?
  | _, _ => none

end Reader

/-- The value of a text, if it is one JSON value and nothing else. -/
def parse? (text : String) : Option Json :=
  (text.toList.foldlM Reader.step Reader.initial).bind Reader.result?

-- ============================================================ queries

/-- The value of a key, the first one if it is repeated. -/
def get? (value : Json) (key : String) : Option Json :=
  match value with
  | .object members => (members.find? fun member => member.1 == some key).map (·.2)
  | _ => none

end LayeredLexer.Json
