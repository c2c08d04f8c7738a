/-
Preferences about logging: down to which level events are logged, how
they are written, and whether they name their source. Structured writing
goes before plain writing; without either, events are logged and not
written. Errors are written to the error channel and all else to the
output.
-/
import LayeredLexer.Console
import LayeredLexer.Log.Event

namespace LayeredLexer.Log

structure Preferences where
  /-- Write events as JSON. -/
  structured : Bool
  /-- Write events as plain lines. -/
  console : Bool
  /-- The least important level that is logged. -/
  threshold : Level
  /-- Name the source in events. -/
  tagged : Bool
deriving DecidableEq, Repr

namespace Preferences

/-- The channel for events of a level. -/
def channel (level : Level) : Channel := if level = .error then .errors else .output

/-- The line that is written for an event. -/
def line? (preferences : Preferences) (timestamp : String) (event : Event) : Option Line :=
  if !event.level.passes preferences.threshold then none
  else if preferences.structured then
    some ⟨channel event.level, (event.toJson timestamp).compact⟩
  else if preferences.console then some ⟨channel event.level, event.line⟩
  else none

/-- The lines that are written for events. -/
def lines (preferences : Preferences) (timestamp : String) (events : Array Event) : List Line :=
  events.toList.filterMap (preferences.line? timestamp)

end Preferences

end LayeredLexer.Log
