/-
Patterns of dotted names. A pattern is a path of identifiers, separated
by dots or slashes, and may end in a star. Without the star it stands for
the one name that its path spells; with it, for that name and every name
below it. The lone star stands for every name.

The reading of a text stops at its leftmost fault. Both separators mean
the same, and a pattern is shown with dots.
-/
import LayeredLexer.Character.Identifier
import LayeredLexer.Log.Code
import LayeredLexer.Text.Quoted

namespace LayeredLexer

/-- The most characters of a pattern. -/
def maxPatternLength : Nat := 1024

/-- The most parts of a pattern. -/
def maxPatternParts : Nat := 128

/-- Why a text is no pattern, or a pattern no name. -/
inductive PatternError where
  | empty
  | emptySegment (pattern : String)
  | invalidSegment (pattern segment : String)
  | misplacedWildcard (pattern : String)
  | wildcardName (name : String)
  | tooLong (length : Nat)
  | tooManySegments (count : Nat)
deriving DecidableEq, Repr

namespace PatternError

def message : PatternError → String
  | empty => "Pattern is empty"
  | emptySegment pattern => s!"Empty segment in '{pattern}'"
  | invalidSegment pattern segment => s!"Segment '{segment}' in '{pattern}' is not an identifier"
  | misplacedWildcard pattern => s!"Wildcard must be the last segment in '{pattern}'"
  | wildcardName name => s!"Name '{name}' must not contain a wildcard"
  | tooLong length => s!"Pattern too long: {length} characters (max {maxPatternLength})"
  | tooManySegments count => s!"Too many segments: {count} (max {maxPatternParts})"

def code : PatternError → Log.Code
  | empty => .emptyPattern
  | emptySegment _ | invalidSegment _ _ => .invalidSegment
  | misplacedWildcard _ => .misplacedWildcard
  | wildcardName _ => .wildcardName
  | tooLong _ | tooManySegments _ => .patternTooLong

/-- The error as a record of its fields. -/
def describe : PatternError → String
  | empty => "Empty"
  | emptySegment pattern => "EmptySegment \x7b pattern: " ++ Quoted.quote pattern ++ " \x7d"
  | invalidSegment pattern segment =>
    "InvalidSegment \x7b pattern: " ++ Quoted.quote pattern ++ ", segment: "
      ++ Quoted.quote segment ++ " \x7d"
  | misplacedWildcard pattern =>
    "MisplacedWildcard \x7b pattern: " ++ Quoted.quote pattern ++ " \x7d"
  | wildcardName name => "WildcardName \x7b name: " ++ Quoted.quote name ++ " \x7d"
  | tooLong length => "TooLong \x7b length: " ++ toString length ++ " \x7d"
  | tooManySegments count => "TooManySegments \x7b count: " ++ toString count ++ " \x7d"

end PatternError

/-- A pattern of names: its path, and whether it reaches below it. -/
structure Pattern where
  segments : List String
  wildcard : Bool
deriving DecidableEq, Repr

namespace Pattern

/-- Whether `c` separates the parts of a pattern. -/
def isSeparator (c : Char) : Bool := c == '.' || c == '/'

/-- The parts of a text between its separators; one more than there are
separators. -/
def parts : List Char → List (List Char)
  | [] => [[]]
  | c :: rest =>
    if isSeparator c then [] :: parts rest
    else
      match parts rest with
      | [] => [[c]]
      | part :: later => (c :: part) :: later

/-- Reads the parts of `text` from left to right. -/
def ofParts (text : String) : List (List Char) → Except PatternError Pattern
  | [] => .ok ⟨[], false⟩
  | part :: rest =>
    if part = ['*'] then
      if rest.isEmpty then .ok ⟨[], true⟩ else .error (.misplacedWildcard text)
    else if part = [] then .error (.emptySegment text)
    else if isIdentifier part then
      match ofParts text rest with
      | .ok pattern => .ok { pattern with segments := String.ofList part :: pattern.segments }
      | .error fault => .error fault
    else .error (.invalidSegment text (String.ofList part))

/-- Reads a pattern. -/
def parse (text : String) : Except PatternError Pattern :=
  let characters := text.toList
  let length := characters.length
  if length = 0 then .error .empty
  else if maxPatternLength < length then .error (.tooLong length)
  else
    let split := parts characters
    if maxPatternParts < split.length then .error (.tooManySegments split.length)
    else ofParts text split

/-- Reads a name: a pattern that does not end in a star. -/
def name (text : String) : Except PatternError Pattern :=
  match parse text with
  | .ok pattern => if pattern.wildcard then .error (.wildcardName text) else .ok pattern
  | .error fault => .error fault

/-- Whether the path is empty. -/
def isRoot (pattern : Pattern) : Bool := pattern.segments.isEmpty

/-- The pattern as text, with dots. -/
def display (pattern : Pattern) : String :=
  ".".intercalate (pattern.segments ++ if pattern.wildcard then ["*"] else [])

-- ============================================================== order

/-- Paths by their first difference, a path before those it begins. -/
def comparePaths : List String → List String → Ordering
  | [], [] => .eq
  | [], _ :: _ => .lt
  | _ :: _, [] => .gt
  | a :: as, b :: bs => if a = b then comparePaths as bs else if a < b then .lt else .gt

/-- Patterns by their paths, and on one path the plain one first. -/
def compare (a b : Pattern) : Ordering :=
  (comparePaths a.segments b.segments).then
    (if a.wildcard = b.wildcard then .eq else if b.wildcard then .lt else .gt)

/-- Whether `a` is stored no later than `b` when a table of rules is read:
outer paths first, and on one path the one with a star first. -/
def storedBefore (a b : Pattern) : Bool :=
  match comparePaths a.segments b.segments with
  | .lt => true
  | .gt => false
  | .eq => a.wildcard || !b.wildcard

end Pattern

end LayeredLexer
