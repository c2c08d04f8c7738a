/-
A store of rules for dotted names. Rules are put under patterns, and a
name gets the rule of the most specific pattern that covers it.

The store is a tree with one node for each path that leads to a rule. A
node holds a rule for its name alone or for all that lies below it as
well; putting one replaces the other. Putting a rule under a starred
pattern removes all rules below it. A rule equal to the one that its name
inherits already is redundant and is not kept; whatever it replaces goes
away, and so does the branch that leads to no rule any more.

The children of a node and its later siblings are kept in one binary
tree, so a path is followed by recursion on the path and the tree is
listed by recursion on the tree.
-/
import LayeredLexer.Log.Event
import LayeredLexer.Rule.Pattern

namespace LayeredLexer

/-- A rule at a node; an exact one holds for the name of the node only. -/
structure Slot (ρ : Type) where
  rule : ρ
  exact : Bool
deriving DecidableEq, Repr

/-- The children of a node: each with its segment, its slot and its own
children, and the siblings behind it. -/
inductive Branches (ρ : Type) where
  | none
  | branch (segment : String) (slot : Option (Slot ρ)) (below rest : Branches ρ)
deriving Repr

/-- A node with its children. A store is its root. -/
structure RuleStore (ρ : Type) where
  slot : Option (Slot ρ)
  below : Branches ρ
deriving Repr

variable {ρ : Type}

namespace Branches

/-- The child under a segment. -/
def find? (segment : String) : Branches ρ → Option (RuleStore ρ)
  | none => .none
  | branch s slot below rest => if s = segment then some ⟨slot, below⟩ else rest.find? segment

/-- Puts a child under a segment, in the place of the one that was there. -/
def put (segment : String) (node : RuleStore ρ) : Branches ρ → Branches ρ
  | none => branch segment node.slot node.below none
  | branch s slot below rest =>
    if s = segment then branch s node.slot node.below rest
    else branch s slot below (rest.put segment node)

/-- Removes the child under a segment. -/
def erase (segment : String) : Branches ρ → Branches ρ
  | none => none
  | branch s slot below rest =>
    if s = segment then rest else branch s slot below (rest.erase segment)

def isNone : Branches ρ → Bool
  | none => true
  | branch .. => false

/-- Whether any rule is stored. -/
def holdsRule : Branches ρ → Bool
  | none => false
  | branch _ slot below rest => slot.isSome || below.holdsRule || rest.holdsRule

/-- The number of rules. -/
def size : Branches ρ → Nat
  | none => 0
  | branch _ slot below rest => (if slot.isSome then 1 else 0) + below.size + rest.size

end Branches

namespace Slot

/-- The pattern of a slot on a path. -/
def pattern (slot : Slot ρ) (path : List String) : Pattern := ⟨path, !slot.exact⟩

/-- The rule that names below the slot inherit. -/
def inherited? (slot : Slot ρ) : Option ρ := if slot.exact then none else some slot.rule

end Slot

/-- The rules of branches on a path, with their patterns. -/
def Branches.rules (path : List String) : Branches ρ → List (Pattern × ρ)
  | none => []
  | branch segment slot below rest =>
    let here := path ++ [segment]
    (slot.toList.map fun s => (s.pattern here, s.rule)) ++ below.rules here ++ rest.rules path

namespace RuleStore

/-- The store without rules. -/
def empty : RuleStore ρ := ⟨none, .none⟩

-- ============================================================ queries

/-- Whether any rule is stored at a node or below it. -/
def holdsRule (store : RuleStore ρ) : Bool := store.slot.isSome || store.below.holdsRule

/-- The number of stored rules. -/
def size (store : RuleStore ρ) : Nat := (if store.slot.isSome then 1 else 0) + store.below.size

def isEmpty (store : RuleStore ρ) : Bool := store.size == 0

/-- The node at the end of a path. -/
def descend? : List String → RuleStore ρ → Option (RuleStore ρ)
  | [], store => some store
  | segment :: path, store => (store.below.find? segment).bind (descend? path)

/-- The rule that a node passes on. -/
def inheritedHere? (store : RuleStore ρ) : Option ρ := store.slot.bind Slot.inherited?

/-- The rule that the node at the end of a path inherits from the nodes
before it, `best` being the one inherited so far. -/
def inherited? (best : Option ρ) : List String → RuleStore ρ → Option ρ
  | [], _ => best
  | segment :: path, store =>
    let best := store.inheritedHere?.or best
    match store.below.find? segment with
    | some child => inherited? best path child
    | none => best

/-- The rule for the name at the end of a path, `best` being the one found
so far. A rule for one name only counts at the end of the path. -/
def lookupFrom (best : Option ρ) : List String → RuleStore ρ → Option ρ
  | [], _ => best
  | segment :: path, store =>
    match store.below.find? segment with
    | none => best
    | some child =>
      match child.slot with
      | some slot =>
        if !slot.exact || path.isEmpty then lookupFrom (some slot.rule) path child
        else lookupFrom best path child
      | none => lookupFrom best path child

/-- The rule for a name. -/
def lookup (store : RuleStore ρ) (name : Pattern) : Option ρ :=
  lookupFrom store.inheritedHere? name.segments store

/-- The rule for a name given as text. -/
def get (store : RuleStore ρ) (name : String) : Except PatternError (Option ρ) :=
  (Pattern.name name).map store.lookup

/-- Whether a starred pattern has rules strictly below it. -/
def isOverridden (store : RuleStore ρ) (pattern : Pattern) : Bool :=
  pattern.wildcard
    && (store.descend? pattern.segments).any fun node => !node.below.isNone

/-- Whether a path leads to a node. -/
def containsNode (store : RuleStore ρ) (pattern : Pattern) : Bool :=
  (store.descend? pattern.segments).isSome

/-- The stored rules with their patterns, in the order of the tree. -/
def rules (store : RuleStore ρ) : List (Pattern × ρ) :=
  (store.slot.toList.map fun s => (s.pattern [], s.rule)) ++ store.below.rules []

/-- The stored rules with the texts of their patterns, in ascending order
of the texts. -/
def entries (store : RuleStore ρ) : List (String × ρ) :=
  (store.rules.map fun (pattern, rule) => (pattern.display, rule)).mergeSort
    fun a b => !(b.1 < a.1)

-- ============================================================ changes

/-- Changes the node at the end of a path, and creates the nodes on it
that are missing. -/
def modify (change : RuleStore ρ → RuleStore ρ) : List String → RuleStore ρ → RuleStore ρ
  | [], store => change store
  | segment :: path, store =>
    let child := (store.below.find? segment).getD empty
    { store with below := store.below.put segment (modify change path child) }

/-- Gives a node a rule. One that reaches below the node takes the place
of all that is there. -/
def assign (wildcard : Bool) (rule : ρ) (node : RuleStore ρ) : RuleStore ρ :=
  ⟨some ⟨rule, !wildcard⟩, if wildcard then .none else node.below⟩

/-- Takes the rule off a node, and all that is below it if the rule to be
put there would have reached below it. -/
def clear (wildcard : Bool) (node : RuleStore ρ) : RuleStore ρ :=
  ⟨none, if wildcard then .none else node.below⟩

/-- Cuts off the first branch along a path that leads to no rule. -/
def prune : List String → RuleStore ρ → RuleStore ρ
  | [], store => store
  | segment :: path, store =>
    match store.below.find? segment with
    | none => store
    | some child =>
      if child.holdsRule then { store with below := store.below.put segment (prune path child) }
      else { store with below := store.below.erase segment }

variable [DecidableEq ρ]

/-- Whether a rule is what its pattern inherits already. -/
def isRedundant (store : RuleStore ρ) (pattern : Pattern) (rule : ρ) : Bool :=
  store.inherited? none pattern.segments == some rule

/-- Puts a rule under a pattern. -/
def insert (store : RuleStore ρ) (pattern : Pattern) (rule : ρ) : RuleStore ρ :=
  if store.isRedundant pattern rule then
    (store.modify (clear pattern.wildcard) pattern.segments).prune pattern.segments
  else store.modify (assign pattern.wildcard rule) pattern.segments

/-- What is logged when a rule is put under a pattern. -/
def insertion (store : RuleStore ρ) (pattern : Pattern) (rule : ρ) : Log.Event :=
  let message :=
    if store.isRedundant pattern rule then "Redundant rule dropped" else "Rule stored"
  (Log.Event.debug message).noting "pattern" pattern.display

/-- Puts a rule under a pattern given as text. -/
def put (store : RuleStore ρ) (pattern : String) (rule : ρ) :
    Except PatternError (RuleStore ρ × Log.Event) :=
  (Pattern.parse pattern).map fun p => (store.insert p rule, store.insertion p rule)

/-- Puts rules under patterns one after the other. -/
def insertAll (store : RuleStore ρ) (rules : List (Pattern × ρ)) : RuleStore ρ × Array Log.Event :=
  rules.foldl (fun (store, logged) (pattern, rule) =>
    (store.insert pattern rule, logged.push (store.insertion pattern rule))) (store, #[])

/-- Reads the patterns of a table of rules; the first fault counts. -/
def parseTable (table : List (String × ρ)) : Except PatternError (List (Pattern × ρ)) :=
  table.mapM fun (text, rule) => (Pattern.parse text).map (·, rule)

/-- The store of a table of rules. Outer rules are put first and, on one
path, the one that reaches below it. Only rules for one pattern are put
in the order of the table. -/
def ofTable (table : List (String × ρ)) : Except PatternError (RuleStore ρ × Array Log.Event) :=
  (parseTable table).map fun rules =>
    empty.insertAll (rules.mergeSort fun a b => a.1.storedBefore b.1)

end RuleStore

end LayeredLexer
