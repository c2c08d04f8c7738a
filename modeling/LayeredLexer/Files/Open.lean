/-
Opening files as sources, and reading configurations from them. A file
that is too large is refused before it is read; a directory can be opened
but not read.
-/
import LayeredLexer.Config.Decode
import LayeredLexer.Files.Entry
import LayeredLexer.Scan

namespace LayeredLexer

/-- The most bytes of a source file. -/
def maxFileSize : Nat := 10485760

namespace Entry

/-- What is logged when a source file of a size is opened. -/
def opened (path : String) (size : Nat) : Log.Event :=
  ((Log.Event.success .sourceOpened "Opened source file").noting "path" path).noting
    "size" (toString size)

/-- What is logged when a source file is refused for its size. -/
def refused (path : String) (size : Nat) : Log.Event :=
  (((Log.Event.error .fileTooLarge "Source file exceeds size limit").noting "path" path).noting
    "size" (toString size)).noting "max_size" (toString maxFileSize)

/-- Opens a device of a size, unless it is too large. -/
def openSized (path : String) (size : Nat) (device : Unit → Device) (session : Log.Session) :
    Except SourceError CharSource × Log.Session :=
  if maxFileSize < size then
    (.error (.fileTooLarge size maxFileSize), session.record (refused path size))
  else (.ok (.ofDevice (device ())), session.record (opened path size))

/-- Opens what is found under a path as a source. -/
def openSource (path : String) (entry : Entry) (session : Log.Session) :
    Except SourceError CharSource × Log.Session :=
  match entry with
  | file content =>
    openSized path content.size (fun _ => .ofBytes content.toByteArray.toList) session
  | directory size => openSized path size (fun _ => .failing .isADirectory) session
  | unreachable cause =>
    match cause.kind with
    | .notFound => (.error (.fileNotFound path), session)
    | _ => (.error (.ofIo cause), session)

end Entry

/-- Scans the file under a path. -/
def scanFile (path : String) (files : Files) (preferences : ScanPreferences)
    (session : Log.Session) : Except SourceError Report × Log.Session :=
  match (files path).openSource path session with
  | (.ok source, session) =>
    let (report, session) := scan path source preferences session
    (.ok report, session)
  | (.error error, session) => (.error error, session)

/-- Reads the configuration in the file under a path. -/
def Config.load (environment : Environment) (path : String) (files : Files) :
    Except ConfigError Config :=
  match (files path).text with
  | .ok text => Config.parse environment text
  | .error cause => .error (.read path cause.message)

end LayeredLexer
