/-
The store of a configured table of rules. A path that is configured both
for its name alone and for all names below it keeps the first of the two
only, since both belong to one node; each such path is warned of.
-/
import LayeredLexer.Config.Basic
import LayeredLexer.Log.Session
import LayeredLexer.Rule.Store

namespace LayeredLexer

namespace Rules

/-- The patterns that are valid among the texts of a table. -/
def validPatterns (rules : Dictionary String) : List Pattern :=
  rules.filterMap fun (text, _) => (Pattern.parse text).toOption

/-- The paths that stand for themselves in one pattern and for all below
them in another, in ascending order. -/
def doubledPaths (patterns : List Pattern) : List (List String) :=
  let doubled := patterns.filter fun pattern =>
    !pattern.wildcard && patterns.contains ⟨pattern.segments, true⟩
  ((doubled.map (·.segments)).mergeSort fun a b => Pattern.comparePaths a b != .gt).eraseDups

/-- The warning about a path that is configured both ways. -/
def replacement (path : List String) : Log.Event :=
  ((Log.Event.warning "Exact rule replaces wildcard rule on the same path").noting
    "pattern" (Pattern.display ⟨path, false⟩)).noting "dropped" (Pattern.display ⟨path, true⟩)

/-- What is logged when a table is loaded. -/
def completion (configured stored : Nat) : Log.Event :=
  ((Log.Event.success .rulesLoaded "Pattern rules loaded").noting
    "configured" (toString configured)).noting "stored" (toString stored)

end Rules

/-- Loads the rules of a configuration. -/
def Config.loadRules (config : Config) (session : Log.Session) :
    Except PatternError (RuleStore String) × Log.Session :=
  let doubled := Rules.doubledPaths (Rules.validPatterns config.rules)
  let session := session.recordAll (doubled.map Rules.replacement).toArray
  match RuleStore.ofTable config.rules with
  | .ok (store, events) =>
    let session := session.recordAll events
    (.ok store, session.record (Rules.completion config.rules.length store.size))
  | .error error => (.error error, session.record (.error error.code error.message))

end LayeredLexer
