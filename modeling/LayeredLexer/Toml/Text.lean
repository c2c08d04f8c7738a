/-
Strings, keys, blanks and comments of TOML. Every reader takes the rest of
a text and gives back what it read with the rest behind it, or nothing.
-/
import LayeredLexer.Text.Digit

namespace LayeredLexer.Toml

/-- Reads something from the front of a text. -/
abbrev Parser (α : Type) := List Char → Option (α × List Char)

-- ================================================= blanks and comments

/-- Blanks within a line. -/
def isGap (c : Char) : Bool := c == ' ' || c == '\t'

/-- The text behind the blanks in front of it. -/
def skipGap (text : List Char) : List Char := text.dropWhile isGap

/-- Whether `c` can be shown in a comment or a literal string: a tab, or
anything but a control character. -/
def isShown (c : Char) : Bool := c == '\t' || (0x20 ≤ c.toNat && c.toNat != 0x7F)

/-- The text behind the end of the line, which the end of the text is too. -/
def newline? : List Char → Option (List Char)
  | [] => some []
  | '\n' :: rest => some rest
  | '\r' :: '\n' :: rest => some rest
  | _ => none

/-- The text behind what may end a line: blanks, a comment, the line end. -/
def endOfLine? (text : List Char) : Option (List Char) :=
  match skipGap text with
  | '#' :: rest => newline? (rest.dropWhile isShown)
  | rest => newline? rest

/-- The text behind blanks, comments and line ends, as they may stand
between the items of an array. -/
def skipLines (inComment : Bool) : List Char → List Char
  | [] => []
  | '\n' :: rest => skipLines false rest
  | '\r' :: '\n' :: rest => skipLines false rest
  | c :: rest =>
    if inComment then if isShown c then skipLines true rest else c :: rest
    else if isGap c then skipLines false rest
    else if c = '#' then skipLines true rest
    else c :: rest

-- ============================================================ strings

/-- The character that a letter behind a backslash stands for. -/
def unescape? : Char → Option Char
  | 'b' => some '\x08'
  | 'f' => some '\x0c'
  | 'n' => some '\n'
  | 'r' => some '\r'
  | 't' => some '\t'
  | '"' => some '"'
  | '\\' => some '\\'
  | _ => none

/-- The rest of a string between single quotes. -/
def literal (done : String) : Parser String
  | '\'' :: rest => some (done, rest)
  | c :: rest => if isShown c then literal (done.push c) rest else none
  | [] => none

/-- The rest of a string between double quotes. -/
def basic (done : String) : Parser String
  | '"' :: rest => some (done, rest)
  | '\\' :: 'u' :: a :: b :: c :: d :: rest =>
    (codePoint? [a, b, c, d]).bind fun ch => basic (done.push ch) rest
  | '\\' :: 'U' :: a :: b :: c :: d :: e :: f :: g :: h :: rest =>
    (codePoint? [a, b, c, d, e, f, g, h]).bind fun ch => basic (done.push ch) rest
  | '\\' :: c :: rest => (unescape? c).bind fun ch => basic (done.push ch) rest
  | c :: rest => if isShown c then basic (done.push c) rest else none
  | [] => none

/-- The end of a string between triple quotes: up to two quotes before the
closing ones belong to the string. -/
def closing (quote : Char) (done : String) (rest : List Char) : String × List Char :=
  match rest with
  | a :: b :: later =>
    if a = quote then
      if b = quote then ((done.push quote).push quote, later) else (done.push quote, b :: later)
    else (done, rest)
  | [a] => if a = quote then (done.push quote, []) else (done, rest)
  | [] => (done, rest)

/-- The rest of a string between triple single quotes. -/
def literalLines (done : String) : Parser String
  | '\'' :: '\'' :: '\'' :: rest => some (closing '\'' done rest)
  | '\r' :: '\n' :: rest => literalLines (done.push '\n') rest
  | c :: rest =>
    if isShown c || c == '\n' then literalLines (done.push c) rest else none
  | [] => none

/-- Whether a backslash before this text joins the lines: nothing but
blanks stands before the line end. -/
def joinsLines (text : List Char) : Bool :=
  match skipGap text with
  | '\n' :: _ | '\r' :: '\n' :: _ => true
  | _ => false

/-- The rest of a string between triple double quotes. While lines are
being joined, blanks and line ends are passed over. -/
def basicLines (joining : Bool) (done : String) : Parser String
  | '"' :: '"' :: '"' :: rest => some (closing '"' done rest)
  | '\\' :: 'u' :: a :: b :: c :: d :: rest =>
    (codePoint? [a, b, c, d]).bind fun ch => basicLines false (done.push ch) rest
  | '\\' :: 'U' :: a :: b :: c :: d :: e :: f :: g :: h :: rest =>
    (codePoint? [a, b, c, d, e, f, g, h]).bind fun ch => basicLines false (done.push ch) rest
  | '\\' :: c :: rest =>
    if joinsLines (c :: rest) then basicLines true done rest
    else (unescape? c).bind fun ch => basicLines false (done.push ch) rest
  | '\r' :: '\n' :: rest =>
    if joining then basicLines true done rest else basicLines false (done.push '\n') rest
  | c :: rest =>
    if joining && (isGap c || c == '\n') then basicLines true done rest
    else if isShown c || c == '\n' then basicLines false (done.push c) rest
    else none
  | [] => none

/-- The text behind a line end that directly follows opening quotes. -/
def skipFirstNewline : List Char → List Char
  | '\n' :: rest => rest
  | '\r' :: '\n' :: rest => rest
  | text => text

-- =============================================================== keys

/-- Whether `c` may stand in a key without quotes. -/
def isBareKey (c : Char) : Bool :=
  ('a' ≤ c && c ≤ 'z') || ('A' ≤ c && c ≤ 'Z') || ('0' ≤ c && c ≤ '9') || c == '-' || c == '_'

/-- One part of a key. -/
def keyPart : Parser String
  | '"' :: rest => basic "" rest
  | '\'' :: rest => literal "" rest
  | text =>
    match text.takeWhile isBareKey with
    | [] => none
    | part => some (String.ofList part, text.dropWhile isBareKey)

/-- The most parts of a key. -/
def maxKeyParts : Nat := 79

/-- A key: its parts, separated by dots, with blanks around them. -/
def key (parts : Nat := maxKeyParts) : Parser (List String) := fun text =>
  match parts with
  | 0 => none
  | parts + 1 => do
    let (part, rest) ← keyPart (skipGap text)
    match skipGap rest with
    | '.' :: rest => do
      let (later, rest) ← key parts rest
      some (part :: later, rest)
    | rest => some ([part], rest)

end LayeredLexer.Toml
