/-
Reading typed values out of JSON. A record is an object with all its
fields, in any order, none of them twice; members under other keys are
passed over. Most records may also be written as an array of their fields
in the declared order. Numbers have upper bounds.
-/
import LayeredLexer.Json.Value
import LayeredLexer.Json.Number

namespace LayeredLexer.Json

/-- A string that has characters. -/
def asString? : Json → Option String
  | .string text => text
  | _ => none

def asBool? : Json → Option Bool
  | .bool value => some value
  | _ => none

/-- A natural number up to a bound. -/
def asNatural? (bound : Nat) : Json → Option Nat
  | .natural value => if value ≤ bound then some value else none
  | _ => none

/-- A list, each item read by `read`. -/
def asList? {α : Type} (read : Json → Option α) : Json → Option (List α)
  | .array items => items.mapM read
  | _ => none

/-- A value that may be null. -/
def asOptional? {α : Type} (read : Json → Option α) : Json → Option (Option α)
  | .null => some none
  | value => (read value).map some

/-- The members of an object whose keys all have characters. -/
def asMembers? : Json → Option (List (String × Json))
  | .object members => members.mapM fun (key, value) => key.map (·, value)
  | _ => none

/-- The value of one field among the members: absent, or there once. -/
def field? (members : List (String × Json)) (name : String) : Option (Option Json) :=
  match members.filter fun member => member.1 == name with
  | [] => some none
  | [(_, value)] => some (some value)
  | _ => none

/-- The fields of a record by their names, from an object or from an array
that holds them all. -/
def asRecord? (names : List String) (value : Json) : Option (List (Option Json)) :=
  match value with
  | .array items => if items.length = names.length then some (items.map some) else none
  | value => do
    let members ← value.asMembers?
    names.mapM (field? members)

-- ==================================================== values kept whole

mutual

/-- Whether a value can be held in memory as it stands: its strings have
characters, its numbers are in range, and its containers are at most
`room` deep. -/
def isHeld (room : Nat) : Json → Bool
  | .null | .bool _ => true
  | .natural value => isInRange value 0
  | .decimal _ significand exponent => isInRange significand exponent
  | .string text => text.isSome
  | .array items => 0 < room && areHeld (room - 1) items
  | .object members => 0 < room && membersAreHeld (room - 1) members

def areHeld (room : Nat) : List Json → Bool
  | [] => true
  | item :: items => isHeld room item && areHeld room items

def membersAreHeld (room : Nat) : List (Option String × Json) → Bool
  | [] => true
  | (key, value) :: members => key.isSome && isHeld room value && membersAreHeld room members

end

end LayeredLexer.Json
