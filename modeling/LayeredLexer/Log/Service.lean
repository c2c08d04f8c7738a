/-
Logs with a threshold. Only the events within the threshold are handed on
to the logger behind the log. The log that preferences ask for writes the
lines that the preferences give the events (`lines_preferred`).
-/
import LayeredLexer.Log.Logger

namespace LayeredLexer.Log

/-- A log with a threshold, the logger behind it, and what loggers fill. -/
structure Service where
  threshold : Level
  logger : Logger
  outlets : Outlets
  /-- The time that events are stamped with. -/
  timestamp : String
deriving Repr

/-- What can be done to a log: handing it an event, and emptying one of
the memories. -/
inductive Action where
  | log (event : Event)
  | clear (place : Nat)
deriving DecidableEq, Repr

namespace Service

/-- Whether events of a level are handed on. -/
def takes (service : Service) (level : Level) : Bool := level.passes service.threshold

/-- Hands an event on. -/
def log (service : Service) (event : Event) : Service :=
  if service.takes event.level then
    { service with outlets := service.logger.take service.timestamp event service.outlets }
  else service

/-- Empties a memory. -/
def clear (service : Service) (place : Nat) : Service :=
  { service with outlets := service.outlets.clear place }

def act (service : Service) : Action → Service
  | .log event => service.log event
  | .clear place => service.clear place

/-- The memory at a place. -/
def memory (service : Service) (place : Nat) : Memory := service.outlets.memory place

-- ============================================================ preferences

/-- The log that preferences ask for, behind some lines that were written
before. -/
def preferred (preferences : Preferences) (timestamp : String) (lines : List Line := []) :
    Service :=
  ⟨preferences.threshold, .preferred preferences, ⟨[], lines⟩, timestamp⟩

section Preferred

variable (preferences : Preferences) (timestamp : String)

/-- It writes the line that the preferences give an event, if any. -/
theorem log_preferred (lines : List Line) (event : Event) :
    (preferred preferences timestamp lines).log event
      = preferred preferences timestamp
          (lines ++ (preferences.line? timestamp event).toList) := by
  unfold log takes Preferences.line? preferred Logger.preferred
  cases hpasses : event.level.passes preferences.threshold with
  | false => simp
  | true =>
      cases preferences.structured with
      | true => simp [Logger.take, Outlets.write, hpasses]
      | false => cases preferences.console <;> simp [Logger.take, Outlets.write, hpasses]

/-- The lines of the log that preferences ask for are those that they give
the events. -/
theorem lines_preferred (events : Array Event) :
    (events.foldl log (preferred preferences timestamp)).outlets.lines
      = preferences.lines timestamp events := by
  suffices hbehind : ∀ (events : List Event) (lines : List Line),
      (events.foldl log (preferred preferences timestamp lines)).outlets.lines
        = lines ++ events.filterMap (preferences.line? timestamp) by
    rw [← Array.foldl_toList, hbehind]
    rfl
  intro events lines
  induction events generalizing lines with
  | nil => exact (List.append_nil lines).symm
  | cons event events ih =>
      rw [List.foldl_cons, log_preferred, ih, List.append_assoc, List.filterMap_cons]
      cases preferences.line? timestamp event <;> rfl

end Preferred

end Service

end LayeredLexer.Log
