/-
Reports as JSON. A report is a record of its fields; its counts are an
object with a member for each kind. A scanned token is written as the
token's own members with the line behind them, so it has no form as an
array, and what else its object holds has to be a value that can be held.
-/
import LayeredLexer.Scan.Report
import LayeredLexer.Stream.LineCount
import LayeredLexer.TokenJson

namespace LayeredLexer

/-- The greatest depth of what a scanned token may hold besides its own
fields. With the report and the list around it a text is 127 deep. -/
def maxExtraDepth : Nat := 124

namespace ScannedToken

def toJson (scanned : ScannedToken) : Json :=
  Json.record (scanned.token.jsonMembers ++ [("line", .natural scanned.line)])

/-- What may stand behind the name of a scanned token's kind. -/
def isNothing : Json → Bool
  | .null | .object [] => true
  | _ => false

def ofJson? (value : Json) : Option ScannedToken := do
  let members ← value.asMembers?
  let own := ["kind", "text", "offset", "line"]
  guard (members.all fun (key, value) => own.contains key || value.isHeld maxExtraDepth)
  match ← own.mapM (Json.field? members) with
  | [some kind, some text, some offset, some line] =>
    some ⟨← Token.ofFields? isNothing kind text offset, ← line.asNatural? maxLine⟩
  | _ => none

end ScannedToken

namespace Diagnostic

def toJson (d : Diagnostic) : Json :=
  Json.record [
    ("code", .text d.code.text), ("message", .text d.message),
    ("offset", Json.orNull (d.offset.map .natural)), ("line", .natural d.line),
    ("recoverable", .bool d.recoverable)]

/-- Reads a diagnostic. Its offset may be missing. -/
def ofJson? (value : Json) : Option Diagnostic := do
  match ← value.asRecord? ["code", "message", "offset", "line", "recoverable"] with
  | [some code, some message, offset, some line, some recoverable] =>
    some ⟨⟨← code.asString?⟩, ← message.asString?,
      ← (offset.getD .null).asOptional? (·.asNatural? Json.maxCount),
      ← line.asNatural? maxLine, ← recoverable.asBool?⟩
  | _ => none

end Diagnostic

namespace Report

def toJson (report : Report) : Json :=
  Json.record [
    ("source", .text report.source),
    ("tokens", .array (report.tokens.toList.map ScannedToken.toJson)),
    ("token_counts", Json.record (report.counts.map fun (kind, count) => (kind, .natural count))),
    ("diagnostics", .array (report.diagnostics.toList.map Diagnostic.toJson)),
    ("dropped_diagnostics", .natural report.dropped),
    ("lines", .natural report.lines),
    ("characters", .natural report.characters),
    ("completed", .bool report.completed),
    ("elapsed_ms", .natural report.elapsedMs)]

/-- Reads the counts; of two counts for one kind the later one holds. -/
def countsOfJson? (value : Json) : Option (Dictionary Nat) := do
  let counts ← (← value.asMembers?).mapM fun (kind, count) => do
    some (kind, ← count.asNatural? Json.maxCount)
  some (Dictionary.ofList counts)

/-- Reads a report. -/
def ofJson? (value : Json) : Option Report := do
  let fields ← value.asRecord? ["source", "tokens", "token_counts", "diagnostics",
    "dropped_diagnostics", "lines", "characters", "completed", "elapsed_ms"]
  match fields with
  | [some source, some tokens, some counts, some diagnostics, some dropped, some lines,
      some characters, some completed, some elapsedMs] =>
    some {
      source := ← source.asString?
      tokens := (← tokens.asList? ScannedToken.ofJson?).toArray
      counts := ← countsOfJson? counts
      diagnostics := (← diagnostics.asList? Diagnostic.ofJson?).toArray
      dropped := ← dropped.asNatural? Json.maxCount
      lines := ← lines.asNatural? maxLine
      characters := ← characters.asNatural? Json.maxCount
      completed := ← completed.asBool?
      elapsedMs := ← elapsedMs.asNatural? Json.maxCount }
  | _ => none

end Report

end LayeredLexer
