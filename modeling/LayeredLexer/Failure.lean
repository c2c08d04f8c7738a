/-
What keeps a program from its results: a source that cannot be opened, a
pattern that is none, or a configuration that cannot be had.
-/
import LayeredLexer.Config.Basic
import LayeredLexer.Rule.Pattern
import LayeredLexer.Source.Error

namespace LayeredLexer

inductive Failure where
  | source (error : SourceError)
  | rules (error : PatternError)
  | config (error : ConfigError)
deriving DecidableEq, Repr

namespace Failure

def message : Failure → String
  | source error => "Source could not be opened: " ++ error.message
  | rules error => "Invalid rule pattern: " ++ error.message
  | config error => "Configuration failed: " ++ error.message

def code : Failure → Log.Code
  | source error => error.code
  | rules error => error.code
  | config _ => .configuration

end Failure

end LayeredLexer
