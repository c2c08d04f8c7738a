/-
Preferences from the environment. Each preference has a variable; a
variable that is not set, or does not hold a value of its kind, leaves
the preference at its plain default.
-/
import LayeredLexer.Json.Decode
import LayeredLexer.Log.Preferences
import LayeredLexer.Scan.Report
import LayeredLexer.Text.Digit

namespace LayeredLexer

/-- The variables of an environment, by their names. -/
abbrev Environment := String → Option String

/-- The most errors that a report can be asked to keep. -/
def maxReportedDiagnostics : Nat := 1000

namespace Environment

/-- The variable of a preference. -/
def variableName (preference : String) : String := "CONTRACT_LEXER_" ++ preference

/-- What the variable of a preference holds. -/
def setting (environment : Environment) (preference : String) : Option String :=
  environment (variableName preference)

def bool? : String → Option Bool
  | "true" => some true
  | "false" => some false
  | _ => none

/-- A count in decimal digits, which may have a plus before them. -/
def count? (text : String) : Option Nat := do
  let digits := match text.toList with
    | '+' :: rest => rest
    | characters => characters
  guard (!digits.isEmpty)
  let count ← decimalValue? digits
  guard (count ≤ Json.maxCount)
  some count

/-- A level by its name or number, in any case of letters. -/
def level? (text : String) : Option Log.Level :=
  match text.map Char.toLower with
  | "error" | "0" => some .error
  | "warning" | "warn" | "1" => some .warning
  | "info" | "2" => some .info
  | "debug" | "3" => some .debug
  | _ => none

/-- The setting of a preference, read; the default where there is none. -/
def settingOr {α : Type} (environment : Environment) (preference : String)
    (read : String → Option α) (default : α) : α :=
  ((environment.setting preference).bind read).getD default

/-- The preferences that have a variable. -/
def preferences : List String := [
  "SCAN_INCLUDE_TRIVIA", "SCAN_STOP_ON_BALANCE_ERROR", "SCAN_MAX_DIAGNOSTICS",
  "LOGGING_USE_STRUCTURED", "LOGGING_ENABLE_CONSOLE", "LOGGING_MIN_LEVEL",
  "LOGGING_INCLUDE_SOURCE_CONTEXT"]

/-- The preferences of a scan. More errors than can be asked for count as
all that can. -/
def scanPreferences (environment : Environment) : ScanPreferences where
  includeTrivia := environment.settingOr "SCAN_INCLUDE_TRIVIA" bool? false
  stopOnBalanceError := environment.settingOr "SCAN_STOP_ON_BALANCE_ERROR" bool? false
  maxDiagnostics := min (environment.settingOr "SCAN_MAX_DIAGNOSTICS" count? 100)
    maxReportedDiagnostics

/-- The preferences about logging. -/
def logPreferences (environment : Environment) : Log.Preferences where
  structured := environment.settingOr "LOGGING_USE_STRUCTURED" bool? false
  console := environment.settingOr "LOGGING_ENABLE_CONSOLE" bool? false
  threshold := environment.settingOr "LOGGING_MIN_LEVEL" level? .info
  tagged := environment.settingOr "LOGGING_INCLUDE_SOURCE_CONTEXT" bool? true

end Environment

end LayeredLexer
