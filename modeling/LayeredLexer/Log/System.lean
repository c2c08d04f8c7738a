/-
The logging of a whole program. It is set up in two steps, each of which
can be made once: the preferences are installed, and a session is
started. Until preferences are installed the defaults hold.
-/
import LayeredLexer.Log.Memory
import LayeredLexer.Log.Preferences
import LayeredLexer.Log.Session

namespace LayeredLexer.Log

structure System where
  defaults : Preferences
  installed : Option Preferences := none
  session : Option Session := none

/-- Why a step of the set-up is refused. -/
inductive SetupError where
  | preferencesInstalled
  | sessionStarted
deriving DecidableEq, Repr

def SetupError.message : SetupError → String
  | preferencesInstalled => "Runtime preferences already initialized"
  | sessionStarted => "Global logger already initialized"

namespace System

/-- The preferences that hold. -/
def preferences (system : System) : Preferences := system.installed.getD system.defaults

/-- Whether a session was started. -/
def isStarted (system : System) : Bool := system.session.isSome

/-- Installs preferences. -/
def install (system : System) (preferences : Preferences) : Except SetupError System :=
  match system.installed with
  | some _ => .error .preferencesInstalled
  | none => .ok { system with installed := some preferences }

/-- The session of a program that begins, as it is told. -/
def openingSession (preferences : Preferences) : Session :=
  ({ tagged := preferences.tagged } : Session).record
    (.success .loggingStarted "Global logging system initialized")

/-- Starts a session. -/
def start (system : System) : Except SetupError System :=
  match system.session with
  | some _ => .error .sessionStarted
  | none => .ok { system with session := some (openingSession system.preferences) }

/-- The name of a level in a summary. -/
def levelName : Level → String
  | .error => "Error"
  | .warning => "Warning"
  | .info => "Info"
  | .debug => "Debug"

/-- The limits and preferences as text. -/
def summary (system : System) : String :=
  let preferences := system.preferences
  "Logging Configuration:"
    ++ "\n=== Constants (Compile-time) ==="
    ++ s!"\n- Log buffer size: {Memory.capacity}"
    ++ s!"\n- Max message length: {messageLimit}"
    ++ "\n=== User Preferences (Runtime) ==="
    ++ "\n- Min log level: " ++ levelName preferences.threshold
    ++ s!"\n- Structured logging: {preferences.structured}"
    ++ s!"\n- Console logging: {preferences.console}"
    ++ s!"\n- Include source context: {preferences.tagged}"

/-- The state of logging as text. -/
def diagnostics (system : System) : String :=
  s!"=== Logging System Diagnostics ===\nInitialized: {system.isStarted}\n\n" ++ system.summary

end System

end LayeredLexer.Log
