/-
The arguments of the command. They are read from left to right: flags,
options that take the argument behind them whatever it looks like, and at
most one source file. Asking for help ends the reading at once, and so
does the first fault.
-/

namespace LayeredLexer.CommandLine

/-- What the command is asked to do. -/
structure Options where
  /-- The source file to scan. -/
  input : Option String := none
  json : Bool := false
  includeTrivia : Bool := false
  stopOnBalanceError : Bool := false
  configPath : Option String := none
  /-- The names to look up, in the order of the arguments. -/
  lookups : List String := []
deriving DecidableEq, Repr

/-- What is wrong with the arguments. -/
inductive OptionError where
  | missingPath (option : String)
  | missingName
  | unknownOption (argument : String)
  | unexpectedArgument (argument : String)
  | nothingToDo
deriving DecidableEq, Repr

def OptionError.message : OptionError → String
  | missingPath option => s!"{option} requires a file path"
  | missingName => "--lookup requires a name"
  | unknownOption argument => s!"Unknown option '{argument}'"
  | unexpectedArgument argument => s!"Unexpected argument '{argument}'"
  | nothingToDo => "Nothing to do: give a source file or --lookup"

/-- What the arguments ask for. -/
inductive Request where
  | help
  | perform (options : Options)
deriving DecidableEq, Repr

/-- Whether an argument asks for help. -/
def isHelp (argument : String) : Bool := argument == "--help" || argument == "-h"

/-- Whether an argument names the configuration file. -/
def isConfig (argument : String) : Bool := argument == "--config" || argument == "--rules"

/-- Whether an argument looks like an option. -/
def isOption (argument : String) : Bool := argument.toList.take 2 == ['-', '-']

namespace Options

/-- What a flag sets, if the argument is a flag. -/
def flag? (options : Options) : String → Option Options
  | "--json" => some { options with json := true }
  | "--trivia" => some { options with includeTrivia := true }
  | "--stop-on-balance-error" => some { options with stopOnBalanceError := true }
  | _ => none

/-- Names the source file, which is named once. -/
def positional (options : Options) (argument : String) : Except OptionError Options :=
  if isOption argument then .error (.unknownOption argument)
  else
    match options.input with
    | none => .ok { options with input := some argument }
    | some _ => .error (.unexpectedArgument argument)

/-- What the options of all arguments ask for. -/
def finish (options : Options) : Except OptionError Request :=
  if options.input.isNone && options.lookups.isEmpty then .error .nothingToDo
  else .ok (.perform options)

/-- Reads the rest of the arguments. -/
def read (options : Options) : List String → Except OptionError Request
  | [] => options.finish
  | argument :: rest =>
    if isHelp argument then .ok .help
    else if isConfig argument then
      match rest with
      | path :: rest => { options with configPath := some path }.read rest
      | [] => .error (.missingPath argument)
    else if argument = "--lookup" then
      match rest with
      | name :: rest => { options with lookups := options.lookups ++ [name] }.read rest
      | [] => .error .missingName
    else
      match options.flag? argument with
      | some options => options.read rest
      | none =>
        match options.positional argument with
        | .ok options => options.read rest
        | .error error => .error error

end Options

/-- Reads the arguments. -/
def parseOptions (arguments : List String) : Except OptionError Request :=
  ({} : Options).read arguments

end LayeredLexer.CommandLine
