/-
Files as a program meets them: what is found under a path is a file with
its content, a directory, or nothing that can be reached. The wording of
the failures is that of the system.
-/
import LayeredLexer.Source.Error

namespace LayeredLexer

namespace IoFailure

def missing : IoFailure := ⟨.notFound, "No such file or directory (os error 2)"⟩

def notADirectory : IoFailure := ⟨.other, "Not a directory (os error 20)"⟩

def isADirectory : IoFailure := ⟨.other, "Is a directory (os error 21)"⟩

def nameTooLong : IoFailure := ⟨.other, "File name too long (os error 36)"⟩

def nulInPath : IoFailure := ⟨.other, "file name contained an unexpected NUL byte"⟩

def notText : IoFailure := ⟨.invalidData, "stream did not contain valid UTF-8"⟩

end IoFailure

/-- The content of a file: bytes, or a run of zeros that takes no room. -/
inductive Content where
  | bytes (content : ByteArray)
  | zeros (count : Nat)

namespace Content

/-- The number of bytes. -/
def size : Content → Nat
  | bytes content => content.size
  | zeros count => count

/-- The bytes. -/
def toByteArray : Content → ByteArray
  | bytes content => content
  | zeros count => ⟨Array.replicate count 0⟩

end Content

/-- What is found under a path. A directory has a size of its own. -/
inductive Entry where
  | file (content : Content)
  | directory (size : Nat)
  | unreachable (cause : IoFailure)

/-- All that is found under the paths of a system. -/
abbrev Files := String → Entry

/-- The text of what is found. -/
def Entry.text : Entry → Except IoFailure String
  | file content =>
    match String.fromUTF8? content.toByteArray with
    | some text => .ok text
    | none => .error .notText
  | directory _ => .error .isADirectory
  | unreachable cause => .error cause

end LayeredLexer
