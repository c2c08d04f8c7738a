/-
Quoted text: a text between double quotes in which quotes, backslashes,
line ends, tabs and NUL have two-character escapes and every other
character that cannot be shown is spelled by its code point. Tokens and
startup failures show the texts they carry in this form.
-/
import LayeredLexer.Character.UnprintableTable

namespace LayeredLexer.Quoted

/-- How one character is written between the quotes. A single quote
stands for itself. -/
def escape (c : Char) : String :=
  match c with
  | '\t' => "\\t"
  | '\r' => "\\r"
  | '\n' => "\\n"
  | '\x00' => "\\0"
  | '"' => "\\\""
  | '\\' => "\\\\"
  | c =>
    if unprintableRanges.contains c.toNat then
      "\\u\x7b" ++ String.ofList (Nat.toDigits 16 c.toNat) ++ "\x7d"
    else
      c.toString

/-- The text between double quotes. -/
def quote (text : String) : String :=
  text.toList.foldl (fun written c => written ++ escape c) "\"" ++ "\""

end LayeredLexer.Quoted
