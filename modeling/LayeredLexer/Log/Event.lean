/-
Log events: what a component reports while it works. An event has a
level, a code, a message, sometimes a place in the source, and a context
of named values. Components return the events they raise; where they go
is decided by the log that receives them.

A message is cut at the last whole character that ends within the limit
of bytes, and three dots show the cut.
-/
import LayeredLexer.Dictionary
import LayeredLexer.Json.Value
import LayeredLexer.Log.Code

namespace LayeredLexer.Log

/-- The importance of an event. -/
inductive Level where
  | error
  | warning
  | info
  | debug
deriving DecidableEq, Repr

namespace Level

def name : Level → String
  | error => "ERROR"
  | warning => "WARN"
  | info => "INFO"
  | debug => "DEBUG"

/-- The place of a level, the most important first. -/
def rank : Level → Nat
  | error => 0
  | warning => 1
  | info => 2
  | debug => 3

/-- Whether a log that takes events down to a threshold takes this level. -/
def passes (level threshold : Level) : Bool := level.rank ≤ threshold.rank

end Level

/-- A place in a source: a character offset and, where lines are counted,
a line. -/
structure Location where
  offset : Nat
  line : Option Nat
deriving DecidableEq, Repr

/-- Named values that go with an event. -/
abbrev Context := Dictionary String

-- =========================================================== messages

/-- The most bytes of a message that an event keeps. -/
def messageLimit : Nat := 2048

/-- Where a message is cut that may keep some bytes: the search goes back,
byte by byte, to one at which a character begins or the message ends. It
fails if there is none down to the first byte. -/
def cut? (message : String) (byte : Nat) : Option Nat :=
  if String.Pos.Raw.IsValid message ⟨byte⟩ then some byte
  else
    match byte with
    | 0 => none
    | before + 1 => cut? message before

/-- The first bytes of a message as a text. It fails if they end inside a
character. -/
def front? (message : String) (cut : Nat) : Option String :=
  if h : String.Pos.Raw.IsValid message ⟨cut⟩ then
    some (message.sliceTo (message.pos ⟨cut⟩ h)).copy
  else none

/-- The message as an event keeps it, unless cutting it fails. -/
def clip? (message : String) : Option String :=
  if message.utf8ByteSize ≤ messageLimit then some message
  else do
    let cut ← cut? message messageLimit
    let front ← front? message cut
    return front ++ "..."

/-- The search ends at a byte at which a character begins. -/
theorem exists_cut? (message : String) (byte : Nat) :
    ∃ cut, cut? message byte = some cut ∧ String.Pos.Raw.IsValid message ⟨cut⟩ := by
  induction byte with
  | zero => exact ⟨0, if_pos String.Pos.Raw.isValid_zero, String.Pos.Raw.isValid_zero⟩
  | succ before ih =>
      rw [cut?]
      split
      next h => exact ⟨before + 1, rfl, h⟩
      next => exact ih

/-- Cutting a message never fails. -/
theorem isSome_clip? (message : String) : (clip? message).isSome := by
  obtain ⟨cut, hcut, hvalid⟩ := exists_cut? message messageLimit
  rw [clip?]
  split
  · rfl
  · rw [hcut, Option.bind_eq_bind, Option.bind_some, front?, dif_pos hvalid]
    rfl

/-- The message as an event keeps it. -/
def clip (message : String) : String := (clip? message).get (isSome_clip? message)

-- ============================================================= events

/-- One entry of a log. -/
structure Event where
  level : Level
  code : Code
  message : String
  location : Option Location
  context : Context
deriving DecidableEq, Repr

namespace Event

/-- An event without a place and without context. -/
def plain (level : Level) (code : Code) (message : String) : Event :=
  ⟨level, code, clip message, none, []⟩

def error (code : Code) (message : String) : Event := plain .error code message

def warning (message : String) : Event := plain .warning .plainWarning message

def info (message : String) : Event := plain .info .plainInfo message

/-- An info event that reports a completed step under a code of its own. -/
def success (code : Code) (message : String) : Event := plain .info code message

def debug (message : String) : Event := plain .debug .plainDebug message

/-- The event at a place. -/
def located (event : Event) (offset : Nat) (line : Option Nat) : Event :=
  { event with location := some ⟨offset, line⟩ }

/-- The event with one more named value. -/
def noting (event : Event) (key value : String) : Event :=
  { event with context := event.context.insert key value }

def isError (event : Event) : Bool := event.level == .error

def isInfo (event : Event) : Bool := event.level == .info

-- ============================================================ writing

/-- Where the event is, as the end of a line. -/
def placeText (event : Event) : String :=
  match event.location with
  | some ⟨offset, some line⟩ => s!" at line {line} (offset {offset})"
  | some ⟨offset, none⟩ => s!" at offset {offset}"
  | none => ""

/-- The event on one line. -/
def line (event : Event) : String :=
  "[" ++ event.level.name ++ "] " ++ event.code.text ++ " - " ++ event.message ++ event.placeText

/-- The event with all that is known about its code, and its context. -/
def details (event : Event) : String :=
  let code := event.code
  let judged :=
    if event.isError then
      s!"\n  Severity: {code.severity.name}\n  Recoverable: {code.isRecoverable}"
    else ""
  let described :=
    if code.description = Code.unknownDescription then ""
    else "\n  Description: " ++ code.description
  let context :=
    if event.context.isEmpty then ""
    else event.context.foldl (fun out (key, value) => out ++ s!"\n    {key}: {value}") "\n  Context:"
  event.line ++ "\n  Category: " ++ code.category ++ judged ++ described ++ context

/-- The event as one JSON object, its keys in ascending order. -/
def toJson (timestamp : String) (event : Event) : Json :=
  let code := event.code
  let context :=
    if event.context.isEmpty then []
    else [("context", Json.record (event.context.map fun (key, value) => (key, Json.text value)))]
  let judged :=
    if event.isError then
      [("error_metadata", Json.record [
        ("description", Json.text code.description),
        ("recoverable", .bool code.isRecoverable),
        ("severity", Json.text code.severity.name)])]
    else []
  let place :=
    match event.location with
    | some ⟨offset, line⟩ =>
      [("location", Json.record [
        ("line", Json.orNull (line.map Json.natural)), ("offset", .natural offset)])]
    | none => []
  Json.record (
    [("category", Json.text code.category), ("code", Json.text code.text)] ++ context ++ judged
      ++ [("level", Json.text event.level.name)] ++ place
      ++ [("message", Json.text event.message), ("timestamp", Json.text timestamp)])

end Event

end LayeredLexer.Log
