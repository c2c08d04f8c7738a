/-
What can go wrong between a source and the lexer, with the wording and
the code of each cause. A failed input operation is reported by its kind
and its text; only bytes that are no text at all get an error of their
own, every other failure keeps the text it came with.
-/
import LayeredLexer.Log.Code

namespace LayeredLexer

/-- The kinds of input failures that are told apart. -/
inductive IoKind where
  | notFound
  | invalidData
  | other
deriving DecidableEq, Repr

/-- A failed input operation. -/
structure IoFailure where
  kind : IoKind
  message : String
deriving DecidableEq, Repr

/-- Why a source gives no more characters. -/
inductive SourceError where
  | fileNotFound (path : String)
  | fileTooLarge (size limit : Nat)
  | invalidEncoding
  | io (message : String)
deriving DecidableEq, Repr

namespace SourceError

/-- The error of a failed read. -/
def ofIo (failure : IoFailure) : SourceError :=
  match failure.kind with
  | .invalidData => invalidEncoding
  | _ => io failure.message

def message : SourceError → String
  | fileNotFound path => s!"File not found: {path}"
  | fileTooLarge size limit => s!"File too large: {size} bytes (max: {limit})"
  | invalidEncoding => "Input is not valid UTF-8"
  | io message => s!"I/O error reading input: {message}"

def code : SourceError → Log.Code
  | fileNotFound _ => .fileNotFound
  | fileTooLarge _ _ => .fileTooLarge
  | invalidEncoding => .invalidEncoding
  | io _ => .readFailure

end SourceError

end LayeredLexer
