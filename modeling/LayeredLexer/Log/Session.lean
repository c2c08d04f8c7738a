/-
Sessions: what is logged while a program works. A session knows the
source that is being worked on, and events that are recorded carry its
name. An activity may work on a source of its own; after it the session
is back at the source it had before.
-/
import LayeredLexer.Log.Event

namespace LayeredLexer.Log

/-- The events recorded so far, oldest first, with the source that is
being worked on and whether events are tagged with it. -/
structure Session where
  tagged : Bool := true
  source : Option String := none
  events : Array Event := #[]

namespace Session

/-- The event as the session records it. The name of the source replaces
what the event itself says under that key. -/
def tag (session : Session) (event : Event) : Event :=
  match session.source with
  | some name => if session.tagged then event.noting "source" name else event
  | none => event

/-- The tag leaves the level of an event, -/
theorem tag_level (session : Session) (event : Event) :
    (session.tag event).level = event.level := by
  unfold tag
  split
  · split <;> rfl
  · rfl

/-- and what it says under other names. -/
theorem tag_context (session : Session) (event : Event) {key : String}
    (h : key ≠ "source") : (session.tag event).context.get? key = event.context.get? key := by
  unfold tag
  split
  · split
    · exact Dictionary.get?_insert_of_ne h.symm _ _
    · rfl
  · rfl

/-- Records an event as it is. -/
def recordBare (session : Session) (event : Event) : Session :=
  { session with events := session.events.push event }

/-- Records an event. -/
def record (session : Session) (event : Event) : Session := session.recordBare (session.tag event)

/-- Records events in their order. -/
def recordAll (session : Session) (events : Array Event) : Session :=
  { session with events := session.events ++ events.map session.tag }

/-- The session when it works on a source, or on none. -/
def about (session : Session) (source : Option String) : Session :=
  { session with source := source }

/-- Does something about a source, and goes back to the one before. -/
def within {α : Type} (session : Session) (name : String) (activity : Session → α × Session) :
    α × Session :=
  let (result, later) := activity (session.about (some name))
  (result, later.about session.source)

end Session

end LayeredLexer.Log
