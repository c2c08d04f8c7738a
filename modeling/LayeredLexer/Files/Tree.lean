/-
Trees of files in memory, and what their paths lead to. A path is walked
part by part from the top of the tree. Empty parts and single dots stay
where they are, and two dots go up, above the top into directories that
hold nothing known. A file ends the path: nothing may follow it, not even
a separator.
-/
import LayeredLexer.Files.Entry

namespace LayeredLexer

/-- A tree of files: the parts of each path, with what is there. The
directories on the way to it are there too. -/
structure FileTree where
  nodes : List (List String × Entry)

namespace FileTree

/-- The size of a directory. -/
def directorySize : Nat := 4096

/-- The most bytes of one part of a path. -/
def maxPartSize : Nat := 255

/-- One more than the most bytes of a path. -/
def pathBound : Nat := 4096

/-- The parts of a path between its separators. -/
def parts (path : String) : List String := path.splitOn "/"

/-- Whether a part stays in its directory. -/
def isStill (part : String) : Bool := part == "" || part == "."

/-- The tree of paths that are given as text. -/
def ofList (nodes : List (String × Entry)) : FileTree :=
  ⟨nodes.map fun (path, entry) => ((parts path).filter fun part => !isStill part, entry)⟩

/-- What is at a place in the tree. -/
def entryAt (tree : FileTree) (place : List String) : Entry :=
  match tree.nodes.find? fun node => node.1 == place with
  | some (_, entry) => entry
  | none =>
    if tree.nodes.any fun node => place.isPrefixOf node.1 then .directory directorySize
    else .unreachable .missing

/-- Walks the parts of a path from a directory: one of the tree, or one
above its top if there is none. -/
def walk (tree : FileTree) : Option (List String) → List String → Entry
  | none, [] => .directory directorySize
  | some [], [] => .directory directorySize
  | some place, [] => tree.entryAt place
  | place, part :: rest =>
    if isStill part then walk tree place rest
    else if part = ".." then
      match place with
      | some (first :: later) => walk tree (some (first :: later).dropLast) rest
      | _ => walk tree none rest
    else if maxPartSize < part.utf8ByteSize then .unreachable .nameTooLong
    else
      match place with
      | none => .unreachable .missing
      | some place =>
        match tree.entryAt (place ++ [part]) with
        | .directory _ => walk tree (some (place ++ [part])) rest
        | entry =>
          match entry, rest with
          | .file _, _ :: _ => .unreachable .notADirectory
          | entry, _ => entry

/-- What a path leads to. A path that begins with a separator starts above
the tree. -/
def find (tree : FileTree) (path : String) : Entry :=
  if path.contains '\x00' then .unreachable .nulInPath
  else if path.isEmpty then .unreachable .missing
  else if pathBound ≤ path.utf8ByteSize then .unreachable .nameTooLong
  else tree.walk (if path.startsWith "/" then none else some []) (parts path)

end FileTree

end LayeredLexer
