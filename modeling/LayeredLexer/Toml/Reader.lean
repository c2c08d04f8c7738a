/-
Reading TOML. A document is a sequence of lines: headers, keys with their
values, comments and empty lines. A value may hold others; containers are
at most 79 deep, so reading one is recursion on the depth that is left.
Lists within a level are read by recursion on a number of steps, for which
the length of the text is enough: each step takes a character.
-/
import LayeredLexer.Toml.Number

namespace LayeredLexer.Toml

/-- The most containers around a value. -/
def maxDepth : Nat := 79

/-- The items of an array behind its opening bracket, up to the closing
one. A comma may stand behind the last item. -/
def items (item : Parser Value) (steps : Nat) (done : List Value) : Parser Value := fun text =>
  match steps, skipLines false text with
  | _, ']' :: rest => some (.array done.reverse, rest)
  | 0, _ => none
  | steps + 1, text => do
    let (value, rest) ← item text
    match skipLines false rest with
    | ',' :: rest => items item steps (value :: done) rest
    | ']' :: rest => some (.array (value :: done).reverse, rest)
    | _ => none

/-- A key and its value, on one line. -/
def keyValue (value : Parser Value) : Parser (List String × Value) := fun text => do
  let (name, rest) ← key maxKeyParts text
  let (_, rest) ← mark '=' rest
  let (content, rest) ← value (skipGap rest)
  some ((name, content), rest)

/-- The keys of an inline table, up to its closing brace. -/
def pairs (value : Parser Value) (steps : Nat) (entries : Entries) : Parser Value := fun text =>
  match steps with
  | 0 => none
  | steps + 1 => do
    let ((name, content), rest) ← keyValue value text
    let (path, last) ← splitKey? name
    let entries ← entries.define path last content .header
    match skipGap rest with
    | ',' :: rest => pairs value steps entries rest
    | '\x7d' :: rest => some (.inline entries, rest)
    | _ => none

/-- A value, with at most `depth` containers around those inside it. -/
def value (depth : Nat) : Parser Value := fun text =>
  match text with
  | '"' :: '"' :: '"' :: rest =>
    (basicLines false "" (skipFirstNewline rest)).map fun (s, rest) => (.string s, rest)
  | '"' :: rest => (basic "" rest).map fun (s, rest) => (.string s, rest)
  | '\'' :: '\'' :: '\'' :: rest =>
    (literalLines "" (skipFirstNewline rest)).map fun (s, rest) => (.string s, rest)
  | '\'' :: rest => (literal "" rest).map fun (s, rest) => (.string s, rest)
  | '[' :: rest =>
    match depth with
    | 0 => none
    | depth + 1 => items (value depth) rest.length [] rest
  | '\x7b' :: rest =>
    match depth with
    | 0 => none
    | depth + 1 =>
      match skipGap rest with
      | '\x7d' :: rest => some (.inline [], rest)
      | rest => pairs (value depth) rest.length [] rest
  | 't' :: 'r' :: 'u' :: 'e' :: rest => some (.boolean true, rest)
  | 'f' :: 'a' :: 'l' :: 's' :: 'e' :: rest => some (.boolean false, rest)
  | text => number text

/-- A header behind its opening brackets, with the line it ends. -/
def header (document : Document) (repeated : Bool) (text : List Char) :
    Option (Document × List Char) := do
  let (name, rest) ← key maxKeyParts text
  let (_, rest) ← mark ']' rest
  let (_, rest) ← if repeated then mark ']' rest else some ((), rest)
  some (← document.start name repeated, ← endOfLine? rest)

/-- One line of a document. -/
def line (document : Document) (text : List Char) : Option (Document × List Char) :=
  match skipGap text with
  | '[' :: '[' :: rest => header document true rest
  | '[' :: rest => header document false rest
  | text =>
    match endOfLine? text with
    | some rest => some (document, rest)
    | none => do
      let ((name, content), rest) ← keyValue (value maxDepth) text
      some (← document.define name content, ← endOfLine? rest)

/-- The lines of a document. -/
def lines (steps : Nat) (document : Document) (text : List Char) : Option Entries :=
  match steps, text with
  | _, [] => document.settle
  | 0, _ => none
  | steps + 1, text => do
    let (document, rest) ← line document text
    lines steps document rest

/-- The entries of a document. A byte order mark in front is passed over. -/
def parse? (text : String) : Option Entries :=
  let characters := text.toList
  let body := if characters.head? = some '\uFEFF' then characters.tail else characters
  lines body.length {} body

end LayeredLexer.Toml
