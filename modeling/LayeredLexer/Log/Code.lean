/-
Codes: the short names that errors and log events go by. A code is any
text; the registry of this file says what is known about the codes the
library itself raises, and the queries below answer for every code, with
a neutral answer for one that is not registered.
-/

namespace LayeredLexer.Log

/-- The short name of an error or of a kind of event. -/
structure Code where
  text : String
deriving DecidableEq, Repr

/-- How bad an error is. -/
inductive Severity where
  | critical
  | high
  | medium
  | low
deriving DecidableEq, Repr

/-- What is known about a registered error code. -/
structure CodeEntry where
  code : Code
  category : String
  severity : Severity
  recoverable : Bool
  description : String
deriving Repr

namespace Severity

def name : Severity → String
  | critical => "Critical"
  | high => "High"
  | medium => "Medium"
  | low => "Low"

/-- The place of a severity, the worst first. -/
def rank : Severity → Nat
  | critical => 0
  | high => 1
  | medium => 2
  | low => 3

end Severity

namespace Code

-- ======================================================= error codes

def fileNotFound : Code := ⟨"E005"⟩
def fileTooLarge : Code := ⟨"E006"⟩
def invalidEncoding : Code := ⟨"E007"⟩
def readFailure : Code := ⟨"E008"⟩
def unterminatedQuote : Code := ⟨"E020"⟩
def unterminatedComment : Code := ⟨"E021"⟩
def endOfInput : Code := ⟨"E022"⟩
def unexpectedCloser : Code := ⟨"E040"⟩
def mismatchedCloser : Code := ⟨"E041"⟩
def unclosedDelimiter : Code := ⟨"E042"⟩
def invalidPushback : Code := ⟨"E050"⟩
def emptyPattern : Code := ⟨"E060"⟩
def invalidSegment : Code := ⟨"E061"⟩
def misplacedWildcard : Code := ⟨"E062"⟩
def wildcardName : Code := ⟨"E063"⟩
def patternTooLong : Code := ⟨"E064"⟩
def configuration : Code := ⟨"E080"⟩

-- ================================================== codes of successes

def loggingStarted : Code := ⟨"I004"⟩
def sourceOpened : Code := ⟨"I006"⟩
def scanComplete : Code := ⟨"I020"⟩
def rulesLoaded : Code := ⟨"I060"⟩

-- ============================= codes of events that carry none of these

def plainWarning : Code := ⟨"W000"⟩
def plainInfo : Code := ⟨"I000"⟩
def plainDebug : Code := ⟨"D000"⟩

-- ========================================================== registry

/-- Every error code that the library documents. -/
def registry : List CodeEntry := [
  ⟨⟨"ERR001"⟩, "System", .critical, false, "Critical internal error"⟩,
  ⟨⟨"ERR002"⟩, "System", .critical, false, "System initialization failure"⟩,
  ⟨fileNotFound, "Source", .medium, false, "Source file not found"⟩,
  ⟨fileTooLarge, "Source", .medium, false, "Source file exceeds maximum size"⟩,
  ⟨invalidEncoding, "Source", .high, false, "Source is not valid UTF-8"⟩,
  ⟨readFailure, "Source", .high, false, "I/O failure while reading source"⟩,
  ⟨unterminatedQuote, "Lexical", .high, false, "Quoted literal not closed before end of input"⟩,
  ⟨unterminatedComment, "Lexical", .high, false, "Block comment not closed before end of input"⟩,
  ⟨endOfInput, "Lexical", .low, true, "Token requested after end of input"⟩,
  ⟨unexpectedCloser, "Balance", .medium, true, "Closing delimiter without an opener"⟩,
  ⟨mismatchedCloser, "Balance", .medium, true, "Closing delimiter does not match its opener"⟩,
  ⟨unclosedDelimiter, "Balance", .medium, true, "Delimiter still open at end of input"⟩,
  ⟨invalidPushback, "Stream", .low, true, "Pushed back token was not the last one read"⟩,
  ⟨emptyPattern, "Pattern", .low, true, "Pattern or name is empty"⟩,
  ⟨invalidSegment, "Pattern", .low, true, "Pattern segment is not an identifier"⟩,
  ⟨misplacedWildcard, "Pattern", .low, true, "Wildcard is only allowed as the last segment"⟩,
  ⟨wildcardName, "Pattern", .low, true, "Lookup name must not be a wildcard"⟩,
  ⟨patternTooLong, "Pattern", .low, true, "Pattern exceeds length limits"⟩,
  ⟨configuration, "Configuration", .medium, false, "Configuration could not be loaded"⟩ ]

/-- The registered facts about a code. -/
def entry? (code : Code) : Option CodeEntry :=
  registry.find? (·.code == code)

/-- An unregistered code counts as harmless. -/
def severity (code : Code) : Severity :=
  (code.entry?.map (·.severity)).getD .low

/-- An unregistered code counts as recoverable. -/
def isRecoverable (code : Code) : Bool :=
  (code.entry?.map (·.recoverable)).getD true

/-- The description of a code that is not registered. -/
def unknownDescription : String := "Unknown error"

def description (code : Code) : String :=
  (code.entry?.map (·.description)).getD unknownDescription

/-- The category of an unregistered code follows from its first letter. -/
def category (code : Code) : String :=
  match code.entry? with
  | some entry => entry.category
  | none =>
    match code.text.toList.head? with
    | some 'I' => "Success"
    | some 'W' => "Warning"
    | some 'D' => "Debug"
    | _ => "Unknown"

end Code

end LayeredLexer.Log
