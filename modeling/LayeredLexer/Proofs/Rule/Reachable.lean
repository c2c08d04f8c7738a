/-
The stores that calls can build, from nothing or from a table of rules.
Every call comes down to putting rules under well-formed patterns, so an
invariant of the store has two cases to prove (`Reachable.invariant`).
-/
import LayeredLexer.Proofs.Rule.Canonical
import LayeredLexer.Proofs.Rule.Slots

namespace LayeredLexer

variable {ρ : Type}

namespace RuleStore

-- ================================================================ tables

theorem parseTable_cons (text : String) (rule : ρ) (table : List (String × ρ)) :
    parseTable ((text, rule) :: table)
      = (Pattern.parse text).bind fun p => (parseTable table).map ((p, rule) :: ·) := by
  unfold parseTable
  rw [List.mapM_cons]
  dsimp only
  cases Pattern.parse text with
  | error fault => rfl
  | ok p => rfl

/-- A table is read row by row. -/
theorem parseTable_cons_eq_ok_iff {text : String} {rule : ρ} {table : List (String × ρ)}
    {rules : List (Pattern × ρ)} :
    parseTable ((text, rule) :: table) = .ok rules
      ↔ ∃ p rest, Pattern.parse text = .ok p ∧ parseTable table = .ok rest
          ∧ rules = (p, rule) :: rest := by
  rw [parseTable_cons]
  cases Pattern.parse text with
  | error fault => simp [Except.bind]
  | ok p =>
      cases parseTable table with
      | error fault => simp [Except.bind, Except.map]
      | ok rest => simp [Except.bind, Except.map, eq_comm]

theorem parseTable_wellFormed {table : List (String × ρ)} {rules : List (Pattern × ρ)}
    (h : parseTable table = .ok rules) : ∀ e ∈ rules, e.1.WellFormed := by
  induction table generalizing rules with
  | nil =>
      cases h
      exact fun _ he => nomatch he
  | cons row table ih =>
      obtain ⟨p, rest, hparse, hrest, rfl⟩ := parseTable_cons_eq_ok_iff.1 h
      intro e he
      rcases List.mem_cons.1 he with rfl | he
      · exact Pattern.wellFormed_of_parse hparse
      · exact ih hrest e he

-- =========================================================== well-formed

/-- A store in order: no two siblings share a segment, and every rule
sits under a well-formed pattern. -/
structure WellFormed (store : RuleStore ρ) : Prop where
  distinct : store.Distinct
  patterns : ∀ {path slot}, store.slot? path = some slot → (slot.pattern path).WellFormed

theorem WellFormed.empty : (RuleStore.empty : RuleStore ρ).WellFormed where
  distinct := trivial
  patterns h := by
    rw [slot?_empty] at h
    cases h

variable [DecidableEq ρ]

/-- A table is loaded if it can be read, by putting its rows in their
order. -/
theorem ofTable_eq_ok_iff {table : List (String × ρ)} {store : RuleStore ρ}
    {logged : Array Log.Event} :
    ofTable table = .ok (store, logged) ↔ ∃ rules, parseTable table = .ok rules
      ∧ (RuleStore.empty.insertAll (rules.mergeSort fun a b => a.1.storedBefore b.1)).1 = store
      ∧ (RuleStore.empty.insertAll (rules.mergeSort fun a b => a.1.storedBefore b.1)).2 = logged := by
  unfold ofTable
  cases parseTable table with
  | error fault => simp [Except.map]
  | ok rules => simp [Except.map, Prod.ext_iff]

theorem WellFormed.insert {store : RuleStore ρ} {p : Pattern} (rule : ρ) (h : store.WellFormed)
    (hp : p.WellFormed) : (store.insert p rule).WellFormed where
  distinct := h.distinct.insert p rule
  patterns {path slot} hslot := by
    rw [slot?_insert h.distinct] at hslot
    split at hslot
    next hpath =>
      split at hslot
      · cases hslot
      · cases hslot
        rw [hpath]
        simpa [Slot.pattern] using hp
    · split at hslot
      · cases hslot
      · exact h.patterns hslot

-- ============================================================= reachable

/-- Putting a rule under a text puts it under the pattern that is read. -/
theorem put_eq_ok_iff {store next : RuleStore ρ} {text : String} {rule : ρ} {event : Log.Event} :
    store.put text rule = .ok (next, event)
      ↔ ∃ p, Pattern.parse text = .ok p ∧ store.insert p rule = next
          ∧ store.insertion p rule = event := by
  unfold put
  cases Pattern.parse text with
  | error fault => simp [Except.map]
  | ok p => simp [Except.map]

/-- A store that calls have built. -/
inductive Reachable : RuleStore ρ → Prop
  | empty : Reachable empty
  | ofTable {table : List (String × ρ)} {store : RuleStore ρ} {logged : Array Log.Event}
      (h : ofTable table = .ok (store, logged)) : Reachable store
  | put {store next : RuleStore ρ} {text : String} {rule : ρ} {event : Log.Event}
      (h : Reachable store) (hput : store.put text rule = .ok (next, event)) : Reachable next
  | insert {store : RuleStore ρ} {text : String} {p : Pattern} (rule : ρ)
      (h : Reachable store) (hp : Pattern.parse text = .ok p) : Reachable (store.insert p rule)

theorem insertAll_snoc (store : RuleStore ρ) (rules : List (Pattern × ρ)) (call : Pattern × ρ) :
    (store.insertAll (rules ++ [call])).1 = (store.insertAll rules).1.insert call.1 call.2 := by
  rw [insertAll, List.foldl_append]
  rfl

section Invariant

variable {Holds : RuleStore ρ → Prop} {store : RuleStore ρ}
  (step : ∀ {store : RuleStore ρ} {p : Pattern} (rule : ρ),
    Holds store → p.WellFormed → Holds (store.insert p rule))

include step

theorem insertAll_invariant (h : Holds store) {rules : List (Pattern × ρ)}
    (hrules : ∀ e ∈ rules, e.1.WellFormed) : Holds (store.insertAll rules).1 := by
  unfold insertAll
  generalize #[] = logged
  induction rules generalizing store logged with
  | nil => exact h
  | cons e rules ih =>
      exact ih (step e.2 h (hrules e List.mem_cons_self))
        (fun e he => hrules e (List.mem_cons_of_mem _ he)) _

/-- What holds of the empty store and is kept by every well-formed
pattern holds of every store that can be built. -/
theorem Reachable.invariant (start : Holds RuleStore.empty) (h : store.Reachable) :
    Holds store := by
  induction h with
  | empty => exact start
  | @ofTable table store logged h =>
      obtain ⟨rules, hrules, rfl, -⟩ := ofTable_eq_ok_iff.1 h
      refine insertAll_invariant step start fun e he => ?_
      exact parseTable_wellFormed hrules e (List.mem_mergeSort.1 he)
  | put _ hput ih =>
      obtain ⟨p, hparse, rfl, -⟩ := put_eq_ok_iff.1 hput
      exact step _ ih (Pattern.wellFormed_of_parse hparse)
  | insert rule _ hp ih => exact step rule ih (Pattern.wellFormed_of_parse hp)

end Invariant

theorem Reachable.wellFormed {store : RuleStore ρ} (h : store.Reachable) : store.WellFormed :=
  h.invariant WellFormed.insert WellFormed.empty

end RuleStore

end LayeredLexer
