/-
Scanning a whole source. The scan consumes the tokens of a balance check
over the source one by one, records every token and every error, and goes
on past the errors that leave the stream usable. It ends early at an error
that nothing can follow, and at the first fault in the nesting of
delimiters if that is asked for.

The scan loop ends because each token and each recoverable error lowers
the bound on the items that the stream still has.
-/
import LayeredLexer.Log.Session
import LayeredLexer.Scan.Report
import LayeredLexer.Stream.Drain

namespace LayeredLexer

namespace Scan

/-- The balance check over a source that a scan consumes. -/
def checker (source : CharSource) : Stream := (Stream.ofSource source).wrap .balance

/-- The line a token starts on, given the line that was reached behind it.
A token's own line ends have been counted by then. -/
def startLine (token : Token) (reached : Nat) : Nat := reached - token.lineEnds

/-- Whether an error ends the scan. -/
def isFinal (preferences : ScanPreferences) (error : LexError) : Bool :=
  error.isFatal || (error.isBalance && preferences.stopOnBalanceError)

/-- Consumes the rest of a stream into a report. -/
def run (preferences : ScanPreferences) (stream : Stream) (report : Report)
    (logged : Array Log.Event) : Stream × Report × Array Log.Event :=
  match _hconsume : stream.consume with
  | ⟨.ok token, next, events⟩ =>
    let keep := preferences.includeTrivia || !token.isTrivia
    let report := report.recordToken token (startLine token next.line) keep
    run preferences next report (logged ++ events)
  | ⟨.error error, next, events⟩ =>
    if _hend : error = .endOfInput then (next, report, logged ++ events)
    else
      let report := report.recordDiagnostic (.ofError error next.line) preferences.maxDiagnostics
      if _hfinal : isFinal preferences error then
        (next, { report with completed := false }, logged ++ events)
      else run preferences next report (logged ++ events)
termination_by stream.itemsAhead
decreasing_by
  · exact Stream.itemsAhead_consume_lt _hconsume
  · exact Stream.itemsAhead_consume_error_lt _hconsume (by simp_all [isFinal]) _hend

/-- What is logged when a scan is over. -/
def completion (report : Report) : Log.Event :=
  (((Log.Event.success .scanComplete "Scan complete").noting
    "tokens" (toString report.tokenCount)).noting
    "diagnostics" (toString report.errorCount)).noting
    "completed" (toString report.completed)

end Scan

/-- Scans a source under a name. The time that this takes is not measured:
it depends on more than the source, and is left at zero. -/
def scan (name : String) (source : CharSource) (preferences : ScanPreferences)
    (session : Log.Session) : Report × Log.Session :=
  session.within name fun session =>
    let session := session.record ((Log.Event.info "Starting scan").noting "source" name)
    let (last, report, raised) :=
      Scan.run preferences (Scan.checker source) (.initial name) #[]
    let report := { report with lines := last.line, characters := last.offset }
    (report, (session.recordAll raised).record (Scan.completion report))

end LayeredLexer
