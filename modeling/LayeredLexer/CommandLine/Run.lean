/-
What the command does, as a function of its arguments, the environment
and the files. The outcome is what it writes and its exit code: zero if
help was asked for, or if all was done and the scan met no error.

The lines of logged events stand before the result, which is written at
the end, once nothing can fail any more.
-/
import LayeredLexer.CommandLine.Options
import LayeredLexer.Console
import LayeredLexer.Failure
import LayeredLexer.Files.Open
import LayeredLexer.Log.System
import LayeredLexer.Rule.Configured
import LayeredLexer.Scan.ReportJson

namespace LayeredLexer.CommandLine

/-- What the command is run with. -/
structure Setting where
  /-- The name it is called by. -/
  program : String
  environment : Environment
  files : Files
  /-- The time that logged events are stamped with. -/
  timestamp : String

/-- What a run of the command leaves. -/
structure Outcome where
  lines : List Line
  exitCode : Nat
deriving DecidableEq, Repr

namespace Outcome

/-- Ends with complaints. -/
def complain (texts : List String) : Outcome := ⟨texts.map (⟨.errors, ·⟩), 1⟩

/-- The outcome with lines before its own. -/
def after (lines : List Line) (outcome : Outcome) : Outcome :=
  { outcome with lines := lines ++ outcome.lines }

def output (outcome : Outcome) : String := Channel.output.textOf outcome.lines

def errors (outcome : Outcome) : String := Channel.errors.textOf outcome.lines

end Outcome

/-- The rules of the names that were looked up. -/
abbrev Lookups := Dictionary (Option String)

/-- What the command has found out. -/
structure Findings where
  report : Option Report
  lookups : Lookups

-- ============================================================== texts

def usage (program : String) : List String := [
  s!"Usage: {program} <source-file> [options]",
  s!"       {program} --help"]

def helpText (program : String) : List String := [
  "Contract Lexer v0.1.0",
  "Tokenize contract-annotated sources and resolve pattern rules",
  "",
  "USAGE:",
  s!"    {program} <source-file> [options]",
  s!"    {program} --rules <rules.toml> --lookup <name>...",
  "",
  "OPTIONS:",
  "    --help                    Show this help message",
  "    --json                    Print the report as JSON",
  "    --trivia                  Keep whitespace and comment tokens in the report",
  "    --stop-on-balance-error   Stop at the first delimiter imbalance",
  "    --config <file.toml>      Load scan, logging and rule settings",
  "    --rules <file.toml>       Same as --config",
  "    --lookup <name>           Resolve a dotted name against the [rules] table",
  "",
  "ENVIRONMENT:",
  "    CONTRACT_LEXER_SCAN_INCLUDE_TRIVIA, CONTRACT_LEXER_LOGGING_MIN_LEVEL, ...",
  "",
  "EXAMPLES:",
  s!"    {program} Widget.java",
  s!"    {program} Widget.java --json --trivia",
  s!"    {program} --rules lexer.toml --lookup com.example.Widget"]

-- ============================================================= result

namespace Findings

/-- The findings as JSON; what was not asked for is left out. -/
def toJson (findings : Findings) : Json :=
  let report := findings.report.toList.map fun report => ("report", report.toJson)
  let lookups :=
    if findings.lookups.isEmpty then []
    else
      [("lookups", Json.record (findings.lookups.map fun (name, rule) =>
        (name, Json.orNull (rule.map Json.text))))]
  Json.record (report ++ lookups)

/-- The line about a name. -/
def lookupText : String × Option String → String
  | (name, some rule) => s!"{name} => {rule}"
  | (name, none) => s!"{name} => (no rule)"

/-- The findings as texts: the report, and a line for each name. -/
def texts (findings : Findings) : List String :=
  findings.report.toList.map Report.display ++ findings.lookups.map lookupText

/-- Whether the scan, if there was one, met no error. -/
def isClean (findings : Findings) : Bool := !findings.report.any Report.hasErrors

/-- Writes the findings. -/
def outcome (findings : Findings) (json : Bool) : Outcome :=
  let texts := if json then [findings.toJson.pretty] else findings.texts
  ⟨texts.map (⟨.output, ·⟩), if findings.isClean then 0 else 1⟩

end Findings

/-- What is written about a failure. -/
def failureText : Failure → String
  | .source error => "FAILED: " ++ (Failure.source error).message
  | .rules error => "Error: " ++ error.describe
  | .config error => "Error: " ++ error.describe

-- =============================================================== work

/-- The configuration that the options ask for. -/
def configure (setting : Setting) (options : Options) : Except ConfigError Config :=
  let loaded := match options.configPath with
    | some path => Config.load setting.environment path setting.files
    | none => .ok (.default setting.environment)
  loaded.map fun config =>
    { config with scan := { config.scan with
      includeTrivia := config.scan.includeTrivia || options.includeTrivia
      stopOnBalanceError := config.scan.stopOnBalanceError || options.stopOnBalanceError } }

/-- Scans the source file, if there is one. That it cannot be opened is
logged as well. -/
def scanInput (setting : Setting) (config : Config) (input : Option String)
    (session : Log.Session) : Except Failure (Option Report) × Log.Session :=
  match input with
  | none => (.ok none, session)
  | some path =>
    match scanFile path setting.files config.scan session with
    | (.ok report, session) => (.ok (some report), session)
    | (.error error, session) =>
      let failure := Failure.source error
      (.error failure, session.recordBare (.error failure.code failure.message))

/-- Looks up names one after the other. -/
def lookupAll (store : RuleStore String) (names : List String) : Except PatternError Lookups :=
  names.foldlM (fun found name => (store.get name).map fun rule => found.insert name rule) []

/-- Looks up the names, if there are any, in the configured rules. -/
def lookupNames (config : Config) (names : List String) (session : Log.Session) :
    Except Failure Lookups × Log.Session :=
  if names.isEmpty then (.ok [], session)
  else
    match config.loadRules session with
    | (.ok store, session) =>
      match lookupAll store names with
      | .ok lookups => (.ok lookups, session)
      | .error error => (.error (.rules error), session)
    | (.error error, session) => (.error (.rules error), session)

/-- Does what the options ask for. -/
def work (setting : Setting) (options : Options) (config : Config) (session : Log.Session) :
    Except Failure Findings × Log.Session :=
  match scanInput setting config options.input session with
  | (.error failure, session) => (.error failure, session)
  | (.ok report, session) =>
    match lookupNames config options.lookups session with
    | (.error failure, session) => (.error failure, session)
    | (.ok lookups, session) => (.ok ⟨report, lookups⟩, session)

/-- Does what the options ask for, and writes what was logged and what
was found. -/
def perform (setting : Setting) (options : Options) : Outcome :=
  match configure setting options with
  | .error error => .complain [failureText (.config error)]
  | .ok config =>
    let (result, session) := work setting options config (Log.System.openingSession config.logging)
    let written := match result with
      | .ok findings => findings.outcome options.json
      | .error failure => .complain [failureText failure]
    written.after (config.logging.lines setting.timestamp session.events)

/-- The paths of the files that a run with these arguments looks at. -/
def paths (arguments : List String) : List String :=
  match parseOptions arguments with
  | .ok (.perform options) => options.configPath.toList ++ options.input.toList
  | _ => []

/-- Runs the command. -/
def run (setting : Setting) (arguments : List String) : Outcome :=
  if arguments.isEmpty then .complain (usage setting.program)
  else
    match parseOptions arguments with
    | .error error => .complain ["Error: " ++ error.message]
    | .ok .help => ⟨(helpText setting.program).map (⟨.output, ·⟩), 0⟩
    | .ok (.perform options) => perform setting options

end LayeredLexer.CommandLine
