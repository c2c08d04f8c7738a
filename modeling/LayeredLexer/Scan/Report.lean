/-
The outcome of a scan: the tokens that were kept with the lines they start
on, how many tokens there were of each kind, and the errors that were met.
A report keeps the first errors up to a limit and counts the others.
-/
import LayeredLexer.Dictionary
import LayeredLexer.Lexer.Error

namespace LayeredLexer

/-- What a scan keeps, and when it stops. -/
structure ScanPreferences where
  /-- Keep blanks and comments among the tokens. -/
  includeTrivia : Bool
  /-- Stop at the first fault in the nesting of delimiters. -/
  stopOnBalanceError : Bool
  /-- The number of errors to keep. -/
  maxDiagnostics : Nat
deriving DecidableEq, Repr

/-- A token and the line it starts on. -/
structure ScannedToken where
  token : Token
  line : Nat
deriving DecidableEq, Repr

/-- An error that a scan met. -/
structure Diagnostic where
  code : Log.Code
  message : String
  offset : Option Nat
  line : Nat
  recoverable : Bool
deriving DecidableEq, Repr

namespace Diagnostic

/-- The diagnostic of an error that was met on a line. -/
def ofError (error : LexError) (line : Nat) : Diagnostic :=
  ⟨error.code, error.message, error.offset?, line, error.isRecoverable⟩

/-- The diagnostic on one line. -/
def display (d : Diagnostic) : String :=
  match d.offset with
  | some offset => s!"error[{d.code.text}]: {d.message} (line {d.line}, offset {offset})"
  | none => s!"error[{d.code.text}]: {d.message} (line {d.line})"

end Diagnostic

/-- The outcome of a scan. -/
structure Report where
  source : String
  tokens : Array ScannedToken
  /-- The number of tokens of each kind, the ones not kept included. -/
  counts : Dictionary Nat
  diagnostics : Array Diagnostic
  /-- The number of errors beyond the limit. -/
  dropped : Nat
  /-- The line reached. -/
  lines : Nat
  /-- The number of characters taken from the source. -/
  characters : Nat
  /-- Whether the scan went to the end of the source. -/
  completed : Bool
  /-- The time that the scan took, in milliseconds. -/
  elapsedMs : Nat
deriving DecidableEq, Repr

namespace Report

/-- The report of a scan that has not begun. -/
def initial (source : String) : Report := ⟨source, #[], [], #[], 0, 1, 0, true, 0⟩

/-- Counts a token, and keeps it if it is to be kept. -/
def recordToken (report : Report) (token : Token) (line : Nat) (keep : Bool) : Report :=
  let counts := report.counts.alter token.kind.name fun count => count.getD 0 + 1
  let tokens := if keep then report.tokens.push ⟨token, line⟩ else report.tokens
  { report with counts := counts, tokens := tokens }

/-- Keeps an error, or counts it if the limit is reached. -/
def recordDiagnostic (report : Report) (d : Diagnostic) (limit : Nat) : Report :=
  if report.diagnostics.size < limit then
    { report with diagnostics := report.diagnostics.push d }
  else { report with dropped := report.dropped + 1 }

/-- The number of tokens, the ones not kept included. -/
def tokenCount (report : Report) : Nat :=
  report.counts.foldr (fun (_, count) total => count + total) 0

/-- The number of errors, the ones not kept included. -/
def errorCount (report : Report) : Nat := report.diagnostics.size + report.dropped

def hasErrors (report : Report) : Bool := !report.diagnostics.isEmpty || 0 < report.dropped

/-- The first error that nothing could follow. -/
def fatal? (report : Report) : Option Diagnostic :=
  report.diagnostics.find? fun d => !d.recoverable

/-- The texts of the kept tokens, put together. -/
def text (report : Report) : String :=
  report.tokens.foldl (fun out scanned => out ++ scanned.token.text) ""

/-- The name of a kind, filled up with blanks to a column. -/
def padded (name : String) : String :=
  name ++ String.ofList (List.replicate (8 - name.length) ' ')

/-- The report as text: a summary, the counts, the errors, and a remark if
the scan stopped early. -/
def display (report : Report) : String :=
  let summary := report.source ++ ": " ++ toString report.tokenCount ++ " tokens, "
    ++ toString report.lines ++ " lines, " ++ toString report.characters ++ " characters"
  let counted := report.counts.foldl
    (fun out (kind, count) => out ++ "\n  " ++ padded kind ++ " " ++ toString count) summary
  let listed := report.diagnostics.foldl (fun out d => out ++ "\n" ++ d.display) counted
  let more :=
    if 0 < report.dropped then
      "\n... " ++ toString report.dropped ++ " more diagnostics not shown"
    else ""
  listed ++ more ++ (if report.completed then "" else "\nscan stopped early")

end Report

end LayeredLexer
