/-
Configurations: preferences about scans and logging, and a table of
rules under the texts of their patterns.

A configuration that is read has to stay within the limit of reported
errors. Preferences from the environment do by themselves.
-/
import LayeredLexer.Config.Environment
import LayeredLexer.Dictionary
import LayeredLexer.Text.Quoted

namespace LayeredLexer

/-- What a program is configured with. -/
structure Config where
  scan : ScanPreferences
  logging : Log.Preferences
  /-- Rules under the texts of their patterns. -/
  rules : Dictionary String
deriving Repr

/-- Why there is no configuration. -/
inductive ConfigError where
  /-- The file could not be read. -/
  | read (path message : String)
  /-- The text is not a configuration. -/
  | parse
  /-- A value is beyond its limits. -/
  | invalidValue (key message : String)
deriving DecidableEq, Repr

namespace ConfigError

def message : ConfigError → String
  | read path message => s!"Failed to read configuration file '{path}': {message}"
  | parse => "Invalid TOML configuration"
  | invalidValue key message => s!"Invalid configuration value for '{key}': {message}"

/-- The error as a record of its fields. -/
def describe : ConfigError → String
  | read path message =>
    "Read \x7b path: " ++ Quoted.quote path ++ ", message: " ++ Quoted.quote message ++ " \x7d"
  | parse => "Parse"
  | invalidValue key message =>
    "InvalidValue \x7b key: " ++ Quoted.quote key ++ ", message: " ++ Quoted.quote message ++ " \x7d"

end ConfigError

namespace Config

/-- The configuration of a program that is given none. -/
def default (environment : Environment) : Config :=
  ⟨environment.scanPreferences, environment.logPreferences, []⟩

/-- Refuses a configuration that asks for too many errors. -/
def validate (config : Config) : Except ConfigError Config :=
  let asked := config.scan.maxDiagnostics
  if asked ≤ maxReportedDiagnostics then .ok config
  else
    .error (.invalidValue "scan.max_reported_diagnostics"
      s!"{asked} exceeds the limit of {maxReportedDiagnostics}")

-- ============================================================ writing

/-- The name of a level in a configuration. -/
def levelName : Log.Level → String
  | .error => "error"
  | .warning => "warning"
  | .info => "info"
  | .debug => "debug"

def scanJson (preferences : ScanPreferences) : Json :=
  Json.record [
    ("include_trivia", .bool preferences.includeTrivia),
    ("stop_on_balance_error", .bool preferences.stopOnBalanceError),
    ("max_reported_diagnostics", .natural preferences.maxDiagnostics)]

def loggingJson (preferences : Log.Preferences) : Json :=
  Json.record [
    ("use_structured_logging", .bool preferences.structured),
    ("enable_console_logging", .bool preferences.console),
    ("min_log_level", .text (levelName preferences.threshold)),
    ("include_source_context", .bool preferences.tagged)]

def toJson (config : Config) : Json :=
  Json.record [
    ("scan", scanJson config.scan), ("logging", loggingJson config.logging),
    ("rules", Json.record (config.rules.map fun (pattern, rule) => (pattern, .text rule)))]

end Config

end LayeredLexer
