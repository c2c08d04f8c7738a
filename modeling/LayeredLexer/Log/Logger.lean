/-
Loggers: what becomes of the events that a log hands on. A logger drops
them, writes them to the console, keeps them in a memory, or hands them
to several loggers one after the other.

Memories are shared. A logger knows a memory by its place, so a memory can
be a member of several loggers, or of one logger several times, and is
filled by all of them.
-/
import LayeredLexer.Log.Memory
import LayeredLexer.Log.Preferences

namespace LayeredLexer.Log

/-- A logger. Those that write have a threshold of their own. -/
inductive Logger where
  | null
  | console (threshold : Level)
  | structured (threshold : Level)
  | memory (place : Nat)
  | multi (members : List Logger)
deriving Repr

/-- What loggers fill: the memories at their places, and the lines of the
console, in the order in which they were written. -/
structure Outlets where
  memories : List Memory
  lines : List Line := []
deriving DecidableEq, Repr

namespace Outlets

/-- The memory at a place; one that is not there has kept nothing. -/
def memory (outlets : Outlets) (place : Nat) : Memory := (outlets.memories[place]?).getD {}

/-- Keeps an event in the memory at a place. -/
def keep (outlets : Outlets) (place : Nat) (event : Event) : Outlets :=
  { outlets with memories := outlets.memories.modify place (·.record event) }

/-- Empties the memory at a place. -/
def clear (outlets : Outlets) (place : Nat) : Outlets :=
  { outlets with memories := outlets.memories.set place {} }

/-- Writes the text of an event that is within a threshold. -/
def write (outlets : Outlets) (threshold : Level) (event : Event) (text : String) : Outlets :=
  if event.level.passes threshold then
    { outlets with lines := outlets.lines ++ [⟨Preferences.channel event.level, text⟩] }
  else outlets

end Outlets

namespace Logger

mutual

/-- Takes an event. Structured lines stamp it with a time. -/
def take (timestamp : String) (event : Event) : Logger → Outlets → Outlets
  | .null, outlets => outlets
  | .console threshold, outlets => outlets.write threshold event event.line
  | .structured threshold, outlets =>
    outlets.write threshold event (event.toJson timestamp).compact
  | .memory place, outlets => outlets.keep place event
  | .multi members, outlets => takeAll timestamp event members outlets

/-- Has one logger after the other take an event. -/
def takeAll (timestamp : String) (event : Event) : List Logger → Outlets → Outlets
  | [], outlets => outlets
  | member :: others, outlets =>
    takeAll timestamp event others (take timestamp event member outlets)

end

/-- The logger that preferences ask for. -/
def preferred (preferences : Preferences) : Logger :=
  if preferences.structured then .structured preferences.threshold
  else if preferences.console then .console preferences.threshold
  else .null

end Logger

end LayeredLexer.Log
