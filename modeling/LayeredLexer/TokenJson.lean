/-
Tokens as JSON. A token is a record of its kind, text and offset. A kind
is its name; reading also takes the longer form in which the name is the
key of the only member of an object, with nothing behind it.
-/
import LayeredLexer.Json.Decode
import LayeredLexer.Token

namespace LayeredLexer

namespace Kind

/-- Reads a kind. `isEmpty` says what may stand behind its name in the
longer form. -/
def ofJson? (isEmpty : Json → Bool) : Json → Option Kind
  | .string (some name) => ofName? name
  | .object [(some name, value)] => if isEmpty value then ofName? name else none
  | _ => none

end Kind

namespace Token

/-- The members of a token's record. -/
def jsonMembers (token : Token) : List (String × Json) :=
  [("kind", .text token.kind.name), ("text", .text token.text), ("offset", .natural token.offset)]

def toJson (token : Token) : Json := Json.record token.jsonMembers

/-- Reads a token from the values of its fields. -/
def ofFields? (isEmpty : Json → Bool) (kind text offset : Json) : Option Token := do
  some ⟨← Kind.ofJson? isEmpty kind, ← text.asString?, ← offset.asNatural? Json.maxCount⟩

/-- Reads a token. -/
def ofJson? (value : Json) : Option Token := do
  match ← value.asRecord? ["kind", "text", "offset"] with
  | [some kind, some text, some offset] =>
    ofFields? (fun | .null => true | _ => false) kind text offset
  | _ => none

end Token

end LayeredLexer
