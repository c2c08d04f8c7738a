/-
TOML values, and the table of a document while it is being built.

A table may come into being in three ways, and how it did decides what may
be added to it: under a header of its own, as the unnamed parent of a
headed table, or through a dotted key. Arrays and inline tables are closed
where they end. Every rule against defining a thing twice is a rule of
the two functions here that walk down a path, for headers and for keys.
-/

namespace LayeredLexer.Toml

/-- How a table came into being. -/
inductive Origin where
  /-- Under a header of its own. -/
  | header
  /-- As the parent of a table with a header. -/
  | implied
  /-- As the parent in a dotted key. -/
  | dotted
deriving DecidableEq, Repr

/-- A TOML value. Of a floating point number only that it is one is kept,
and of a date or time its text. -/
inductive Value where
  | string (text : String)
  | integer (value : Int)
  | float
  | boolean (value : Bool)
  | datetime (text : String)
  | array (items : List Value)
  | inline (entries : List (String × Value))
  | table (origin : Origin) (entries : List (String × Value))
  /-- The tables of a repeated header, each with its entries. -/
  | tables (items : List (List (String × Value)))
deriving Repr

/-- The entries of a table. -/
abbrev Entries := List (String × Value)

namespace Entries

/-- The value under a key. -/
def get? (key : String) (entries : Entries) : Option Value :=
  (entries.find? fun entry => entry.1 == key).map (·.2)

/-- Puts a value under a key, in the place of the one that was there. -/
def put (key : String) (value : Value) : Entries → Entries
  | [] => [(key, value)]
  | (k, v) :: rest => if k = key then (key, value) :: rest else (k, v) :: put key value rest

/-- Changes the table at the end of a path. Tables on the path that are
missing come into being by the way; of a repeated header the last table is
meant. A dotted key does not lead into a table that has a header, and
nothing leads into a closed value. -/
def within (dotted : Bool) (change : Origin → Entries → Option Entries) :
    List String → Origin → Entries → Option Entries
  | [], origin, entries => change origin entries
  | key :: path, _, entries =>
    match get? key entries with
    | none => do
      let origin := if dotted then Origin.dotted else .implied
      some (put key (.table origin (← within dotted change path origin [])) entries)
    | some (.table origin inner) =>
      if dotted && origin == .header then none
      else do some (put key (.table origin (← within dotted change path origin inner)) entries)
    | some (.tables items) =>
      match items.reverse with
      | [] => none
      | last :: earlier => do
        let changed ← within dotted change path .header last
        some (put key (.tables (earlier.reverse ++ [changed])) entries)
    | some _ => none

/-- Defines a dotted key: the path before its last part, and that part. The
path must lead into a table that is made of dotted keys, and the key must
be new there. -/
def define (path : List String) (key : String) (value : Value) (origin : Origin)
    (entries : Entries) : Option Entries :=
  within true (fun origin entries =>
    if (origin == .dotted) == path.isEmpty || (get? key entries).isSome then none
    else some (put key value entries)) path origin entries

end Entries

/-- The parts of a dotted key: those before the last one, and that one. -/
def splitKey? (key : List String) : Option (List String × String) :=
  match key.reverse with
  | [] => none
  | last :: earlier => some (earlier.reverse, last)

/-- A document that is being read: the tables that are complete, and the
one that keys are being added to, with the header it is under. Before the
first header that is the document itself. -/
structure Document where
  root : Entries := []
  header : List String := []
  repeated : Bool := false
  current : Entries := []

namespace Document

/-- Adds a key to the current table. -/
def define (document : Document) (key : List String) (value : Value) : Option Document := do
  let (path, last) ← splitKey? key
  some { document with current := ← document.current.define path last value .header }

/-- The document with its current table in its place. -/
def settle (document : Document) : Option Entries :=
  match splitKey? document.header with
  | none => some document.current
  | some (path, key) =>
    document.root.within false (fun _ entries =>
      if document.repeated then
        match entries.get? key with
        | none => some (entries.put key (.tables [document.current]))
        | some (.tables items) => some (entries.put key (.tables (items ++ [document.current])))
        | some _ => none
      else some (entries.put key (.table .header document.current))) path .header

/-- Starts the table of a header. A table that is there already must have
been implied by other headers; its entries are kept. -/
def start (document : Document) (header : List String) (repeated : Bool) : Option Document := do
  let root ← document.settle
  if repeated then some ⟨root, header, true, []⟩
  else
    let (path, key) ← splitKey? header
    let existing ← lookup? path key root
    some ⟨root, header, false, existing⟩
where
  /-- The entries that the table of a new header begins with. -/
  lookup? : List String → String → Entries → Option Entries
    | [], key, entries =>
      match entries.get? key with
      | none => some []
      | some (.table .implied inner) => some inner
      | some _ => none
    | part :: path, key, entries =>
      match entries.get? part with
      | none => some []
      | some (.table _ inner) => lookup? path key inner
      | some (.tables items) =>
        match items.getLast? with
        | some last => lookup? path key last
        | none => none
      | some _ => none

end Document

end LayeredLexer.Toml
