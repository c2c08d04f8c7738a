/-
Reading configurations. A record of preferences is a table with a key for
each preference it sets; keys that are not preferences say nothing. It
may also be a list of values in the order of the preferences, which sets
as many as it has. What is not set keeps its default.

A date or time is a record too: a table with its text under a key of its
own, which is no preference.
-/
import LayeredLexer.Config.Basic
import LayeredLexer.Toml.Reader

namespace LayeredLexer

namespace Toml.Value

/-- The key of the text of a date or time. -/
def datetimeKey : String := "$__toml_private_datetime"

/-- The entries of a value that is a table. -/
def entries? : Value → Option Entries
  | .inline entries | .table _ entries => some entries
  | .datetime text => some [(datetimeKey, .string text)]
  | _ => none

/-- The items of a value that is a list. -/
def items? : Value → Option (List Value)
  | .array items => some items
  | .tables items => some (items.map (.table .header))
  | _ => none

/-- The fields of a record in the order of their names. -/
def fields? (names : List String) (value : Value) : Option (List (Option Value)) :=
  match value.entries? with
  | some entries => some (names.map entries.get?)
  | none => value.items?.map fun items => (List.range names.length).map (items[·]?)

def string? : Value → Option String
  | .string text => some text
  | _ => none

def bool? : Value → Option Bool
  | .boolean value => some value
  | _ => none

def natural? : Value → Option Nat
  | .integer value => if 0 ≤ value then some value.toNat else none
  | _ => none

/-- Whether a value is a container that holds nothing. -/
def isEmpty (value : Value) : Bool :=
  match value with
  | .array items => items.isEmpty
  | .inline entries | .table _ entries => entries.isEmpty
  | _ => false

/-- A choice by name: the name alone, or a table with it as the one key,
over an empty container. -/
def choice? : Value → Option String
  | .string name => some name
  | .inline [(name, content)] | .table _ [(name, content)] =>
    if content.isEmpty then some name else none
  | _ => none

end Toml.Value

namespace Config

open Toml (Value Entries)

/-- A field of a record; its default if it is not set. -/
def field {α : Type} (read : Value → Option α) (default : α) : Option Value → Option α
  | none => some default
  | some value => read value

/-- A level by its name. -/
def level? (value : Value) : Option Log.Level := do
  let name ← value.choice?
  [Log.Level.error, .warning, .info, .debug].find? fun level => levelName level == name

def scan? (default : ScanPreferences) (value : Value) : Option ScanPreferences := do
  match ← value.fields? ["include_trivia", "stop_on_balance_error", "max_reported_diagnostics"] with
  | [trivia, stop, limit] =>
    some ⟨← field Value.bool? default.includeTrivia trivia,
      ← field Value.bool? default.stopOnBalanceError stop,
      ← field Value.natural? default.maxDiagnostics limit⟩
  | _ => none

def logging? (default : Log.Preferences) (value : Value) : Option Log.Preferences := do
  match ← value.fields? ["use_structured_logging", "enable_console_logging", "min_log_level",
      "include_source_context"] with
  | [structured, console, threshold, tagged] =>
    some ⟨← field Value.bool? default.structured structured,
      ← field Value.bool? default.console console,
      ← field level? default.threshold threshold,
      ← field Value.bool? default.tagged tagged⟩
  | _ => none

/-- The table of rules; each rule is a string. -/
def rules? (value : Value) : Option (Dictionary String) := do
  let rules ← (← value.entries?).mapM fun (pattern, rule) => do some (pattern, ← rule.string?)
  some (Dictionary.ofList rules)

/-- The configuration that a document holds, before its limits are checked. -/
def ofEntries? (environment : Environment) (entries : Entries) : Option Config := do
  some ⟨← field (scan? environment.scanPreferences) environment.scanPreferences
      (entries.get? "scan"),
    ← field (logging? environment.logPreferences) environment.logPreferences
      (entries.get? "logging"),
    ← field rules? [] (entries.get? "rules")⟩

/-- Reads a configuration. -/
def parse (environment : Environment) (text : String) : Except ConfigError Config :=
  match (Toml.parse? text).bind (ofEntries? environment) with
  | some config => config.validate
  | none => .error .parse

end Config

end LayeredLexer
