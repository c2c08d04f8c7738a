/-
Which row of a table counts, if several rows have one pattern. Of those
the last one does, and on one path a plain row counts before a starred
one. `View.ofRows` says this of the rows in any order, and what a table
loads is the store that covers this view and is pruned (`rows_of_ofTable`).

# From the sorted rows to the table

The rows are put in the order of their patterns, and recording them in
that order leaves on each path the last row there (`recordAll_eq_ofRows`).
The sort is stable, so rows of one pattern stay in the order of the table
and the last of them is the same before and after (`lastRule_mergeSort`).
This is the one place where it matters how rows of the same pattern are
ordered.

# One store for one view

A store realizes a view if it answers alike and is pruned. The view
settles it: on each path the store holds what the view does, unless that
is inherited anyway (`Realizes.slot?_eq`). So stores that realize one
view cannot be told apart.
-/
import LayeredLexer.Proofs.Rule.Pruning
import LayeredLexer.Proofs.Rule.Table

namespace LayeredLexer

variable {ρ : Type}

-- ============================================================== last rows

/-- The rule of the last row for a pattern. -/
def lastRule (rules : List (Pattern × ρ)) (p : Pattern) : Option ρ :=
  ((rules.filter fun e => e.1 = p).map (·.2)).getLast?

/-- The rule of the last row of a table that is read as a pattern. -/
def lastListed (table : List (String × ρ)) (p : Pattern) : Option ρ :=
  ((table.filter fun row => (Pattern.parse row.1).toOption = some p).map (·.2)).getLast?

section LastRule

variable {rules : List (Pattern × ρ)} {p q : Pattern} {rule : ρ}

theorem lastRule_snoc : lastRule (rules ++ [(q, rule)]) p
    = if q = p then some rule else lastRule rules p := by
  rw [lastRule, List.filter_append, List.map_append]
  by_cases hq : q = p
  · have hlast : [(q, rule)].filter (fun e => e.1 = p) = [(q, rule)] :=
      List.filter_cons_of_pos (decide_eq_true hq)
    rw [if_pos hq, hlast]
    exact List.getLast?_concat
  · have hnone : [(q, rule)].filter (fun e => e.1 = p) = [] := by
      apply List.filter_cons_of_neg
      exact fun h => hq (of_decide_eq_true h)
    rw [if_neg hq, hnone, List.map_nil, List.append_nil, lastRule]

theorem lastRule_eq_none_iff : lastRule rules p = none ↔ ∀ rule, (p, rule) ∉ rules := by
  rw [lastRule, List.getLast?_eq_none_iff, List.map_eq_nil_iff, List.filter_eq_nil_iff]
  constructor
  · intro hnone rule hmem
    exact hnone _ hmem (decide_eq_true rfl)
  · intro hnone e hmem heq
    obtain ⟨q, rule⟩ := e
    have hq : q = p := of_decide_eq_true heq
    subst hq
    exact hnone rule hmem

theorem mem_of_lastRule (h : lastRule rules p = some rule) : (p, rule) ∈ rules := by
  obtain ⟨⟨q, held⟩, hmem, rfl⟩ := List.mem_map.1 (List.mem_of_getLast? h)
  obtain ⟨hmem, hq⟩ := List.mem_filter.1 hmem
  have hq : q = p := of_decide_eq_true hq
  exact hq ▸ hmem

/-- Where all rows of a pattern have one rule, the last one has it. -/
theorem lastRule_eq_some_iff (hone : ∀ rule rule', (p, rule) ∈ rules → (p, rule') ∈ rules →
    rule = rule') : lastRule rules p = some rule ↔ (p, rule) ∈ rules := by
  constructor
  · exact mem_of_lastRule
  · intro hmem
    cases hlast : lastRule rules p with
    | none => exact absurd hmem (lastRule_eq_none_iff.1 hlast rule)
    | some held => rw [hone held rule (mem_of_lastRule hlast) hmem]

/-- The sort leaves the rows of one pattern in their order. -/
theorem lastRule_mergeSort (rules : List (Pattern × ρ)) (p : Pattern) :
    lastRule (rules.mergeSort fun a b => a.1.storedBefore b.1) p = lastRule rules p := by
  have hequal : (rules.filter fun e => e.1 = p).Pairwise fun a b => a.1.storedBefore b.1 := by
    apply List.pairwise_of_forall_mem_list
    intro a ha b hb
    rw [of_decide_eq_true (List.mem_filter.1 ha).2, of_decide_eq_true (List.mem_filter.1 hb).2]
    exact p.storedBefore_refl
  have hstable : (rules.filter fun e => e.1 = p).Sublist
      (rules.mergeSort fun a b => a.1.storedBefore b.1) :=
    List.sublist_mergeSort RuleStore.rows_trans RuleStore.rows_total hequal List.filter_sublist
  have hsame : (rules.filter fun e => e.1 = p)
      = (rules.mergeSort fun a b => a.1.storedBefore b.1).filter fun e => e.1 = p := by
    have hkept := hstable.filter fun e => e.1 = p
    rw [List.filter_filter] at hkept
    simp only [Bool.and_self] at hkept
    apply hkept.eq_of_length
    exact ((List.mergeSort_perm _ _).filter _).length_eq.symm
  rw [lastRule, ← hsame, lastRule]

theorem lastListed_eq {table : List (String × ρ)} (h : RuleStore.parseTable table = .ok rules)
    (p : Pattern) : lastListed table p = lastRule rules p := by
  have hrows : (table.filter fun row => (Pattern.parse row.1).toOption = some p).map (·.2)
      = (rules.filter fun e => e.1 = p).map (·.2) := by
    induction table generalizing rules with
    | nil =>
        cases h
        rfl
    | cons row table ih =>
        obtain ⟨q, rest, hparse, hrest, rfl⟩ := RuleStore.parseTable_cons_eq_ok_iff.1 h
        have hread : (Pattern.parse row.1).toOption = some q := by rw [hparse]; rfl
        by_cases hq : q = p
        · rw [List.filter_cons_of_pos (by simp [hread, hq]), List.filter_cons_of_pos (by simp [hq]),
            List.map_cons, List.map_cons, ih hrest]
        · rw [List.filter_cons_of_neg (by simp [hread, hq]), List.filter_cons_of_neg (by simp [hq]),
            ih hrest]
  rw [lastListed, hrows, lastRule]

end LastRule

namespace View

-- ====================================================== the view of rows

/-- What rows leave on each path: the last plain one, or else the last
starred one. -/
def ofRows (rules : List (Pattern × ρ)) : View ρ := fun path =>
  ((lastRule rules ⟨path, false⟩).map fun rule => ⟨rule, true⟩).or
    ((lastRule rules ⟨path, true⟩).map fun rule => ⟨rule, false⟩)

variable {rules : List (Pattern × ρ)} {path : List String} {p : Pattern} {rule : ρ}

/-- The last row of a pattern counts, unless a plain row takes its place. -/
theorem ofRows_eq_some_iff {slot : Slot ρ} :
    ofRows rules path = some slot
      ↔ lastRule rules (slot.pattern path) = some slot.rule
        ∧ ((slot.pattern path).wildcard = true → ∀ plain, (⟨path, false⟩, plain) ∉ rules) := by
  obtain ⟨rule, exact⟩ := slot
  rw [← lastRule_eq_none_iff, ofRows]
  cases hplain : lastRule rules ⟨path, false⟩ with
  | some plain => cases exact <;> simp [Slot.pattern, hplain]
  | none => cases exact <;> simp [Slot.pattern, hplain]

theorem ofRows_last (hfree : p.wildcard = true → ∀ plain, (⟨p.segments, false⟩, plain) ∉ rules)
    (h : lastRule rules p = some rule) : ofRows rules p.segments = some ⟨rule, !p.wildcard⟩ := by
  apply ofRows_eq_some_iff.2
  rw [Slot.pattern, Bool.not_not]
  exact ⟨h, hfree⟩

theorem ofRows_eq_none_iff :
    ofRows rules path = none ↔ ∀ wildcard rule, (⟨path, wildcard⟩, rule) ∉ rules := by
  rw [ofRows, Option.or_eq_none_iff, Option.map_eq_none_iff, Option.map_eq_none_iff,
    lastRule_eq_none_iff, lastRule_eq_none_iff]
  constructor
  · intro hnone wildcard
    cases wildcard with
    | false => exact hnone.1
    | true => exact hnone.2
  · intro hnone
    exact ⟨hnone false, hnone true⟩

theorem ofRows_congr {rules' : List (Pattern × ρ)} (h : ∀ p, lastRule rules p = lastRule rules' p) :
    ofRows rules = ofRows rules' := by
  funext path
  rw [ofRows, h, h, ofRows]

/-- One more row, stored no earlier than the others, is recorded. -/
theorem ofRows_snoc (hbefore : ∀ e ∈ rules, e.1.storedBefore p) :
    ofRows (rules ++ [(p, rule)]) = (ofRows rules).record p rule := by
  funext path
  rw [View.record]
  by_cases hpath : path = p.segments
  · subst hpath
    rw [if_pos rfl]
    apply ofRows_last
    · intro hstar plain hmem
      rcases List.mem_append.1 hmem with hmem | hmem
      · -- a plain row is not stored before the starred one of its path
        rcases Pattern.storedBefore_iff.1 (hbefore _ hmem) with hless | ⟨-, hplain | hplain⟩
        · exact List.lt_irrefl _ hless
        · cases hplain
        · cases hstar.symm.trans hplain
      · rw [← (Prod.mk.inj (List.mem_singleton.1 hmem)).1] at hstar
        cases hstar
    · rw [lastRule_snoc, if_pos rfl]
  · rw [if_neg hpath]
    have hother : ∀ wildcard, lastRule (rules ++ [(p, rule)]) ⟨path, wildcard⟩
        = lastRule rules ⟨path, wildcard⟩ := by
      intro wildcard
      rw [lastRule_snoc, if_neg]
      intro hp
      exact hpath (congrArg Pattern.segments hp).symm
    by_cases hbelow : p.wildcard ∧ p.segments <+: path
    · rw [if_pos hbelow, ofRows, hother, hother]
      apply ofRows_eq_none_iff.2
      intro wildcard rule' hmem
      exact hpath (Pattern.segments_eq_of_storedBefore (hbefore _ hmem) hbelow.2)
    · rw [if_neg hbelow, ofRows, hother, hother, ofRows]

/-- So rows in their order, recorded one after the other, leave the view
of the rows. -/
theorem recordAll_eq_ofRows (hsorted : rules.Pairwise fun a b => a.1.storedBefore b.1) :
    recordAll rules = ofRows rules := by
  induction rules using List.reverseRecOn with
  | nil => rfl
  | append_singleton rules e ih =>
      obtain ⟨hrest, -, hlast⟩ := List.pairwise_append.1 hsorted
      rw [recordAll_snoc, ih hrest, ofRows_snoc]
      intro row hrow
      exact hlast row hrow e List.mem_cons_self

end View

namespace RuleStore

-- ===================================================== one store, one view

/-- The store holds what a view does, less what is inherited anyway. -/
structure Realizes (store : RuleStore ρ) (view : View ρ) : Prop extends Within store view where
  covers : store.Covers view
  pruned : Pruned store.entries

namespace Realizes

variable {store other : RuleStore ρ} {view : View ρ}

/-- What the store has dropped is no loss to what is inherited in it. -/
theorem inherited_eq (h : store.Realizes view) (path : List String) :
    View.inherited store.slot? path = view.inherited path := by
  apply View.inherited_eq h.kept
  intro path slot hview hdropped
  rw [← inherited?_none]
  exact h.covers path slot hview hdropped

/-- Nor to its answers. -/
theorem answer_eq (h : store.Realizes view) (path : List String) :
    View.answer store.slot? path = view.answer path := h.toWithin.answer_eq h.covers path

variable [DecidableEq ρ]

theorem slot?_eq (h : store.Realizes view) (path : List String) :
    store.slot? path = (view path).filter fun slot => view.inherited path ≠ some slot.rule := by
  have hinherited := h.inherited_eq path
  cases hview : view path with
  | none =>
      cases hslot : store.slot? path with
      | none => rfl
      | some slot => cases (h.kept path slot hslot).symm.trans hview
  | some slot =>
      cases hslot : store.slot? path with
      | none =>
          have hsame := h.covers path slot hview hslot
          rw [inherited?_none, hinherited] at hsame
          rw [Option.filter_some, if_neg]
          exact fun hkept => of_decide_eq_true hkept hsame
      | some held =>
          cases (h.kept path held hslot).symm.trans hview
          have hother := h.wellFormed.pruned_iff.1 h.pruned path slot hslot
          rw [hinherited] at hother
          rw [Option.filter_some, if_pos (decide_eq_true hother)]

/-- Stores that realize one view cannot be told apart. -/
theorem unique (h : store.Realizes view) (hother : other.Realizes view) :
    other.entries = store.entries ∧ ∀ name, other.get name = store.get name := by
  constructor
  · apply entries_congr hother.wellFormed h.wellFormed
    funext path
    rw [h.slot?_eq, hother.slot?_eq]
  · intro name
    rw [h.toWithin.get_eq_iff.2 h.covers, hother.toWithin.get_eq_iff.2 hother.covers]

end Realizes

-- ========================================================== what is loaded

variable [DecidableEq ρ]

/-- Rows in their order never put a rule above a stored one, so none is
left that its path inherits. -/
theorem insertAll_pruned {rules : List (Pattern × ρ)} (hpatterns : ∀ e ∈ rules, e.1.WellFormed)
    (hsorted : rules.Pairwise fun a b => a.1.storedBefore b.1) :
    Pruned (empty.insertAll rules).1.entries := by
  induction rules using List.reverseRecOn with
  | nil => exact pruned_empty
  | append_singleton rules e ih =>
      obtain ⟨p, rule⟩ := e
      obtain ⟨hrest, -, hlast⟩ := List.pairwise_append.1 hsorted
      have hrows : ∀ e ∈ rules, e.1.WellFormed :=
        fun e he => hpatterns e (List.mem_append_left _ he)
      have hp : p.WellFormed := hpatterns _ (List.mem_append_right _ List.mem_cons_self)
      obtain ⟨hwithin, -⟩ := insertAll_covers hrows hrest
      rw [insertAll_snoc]
      apply (hwithin.wellFormed.pruned_insert_iff hp (ih hrows hrest)).2
      intro hbares
      obtain ⟨-, path, slot, hslot, ⟨rule', hsource⟩, -⟩ :=
        (hwithin.wellFormed.bares_iff hp.toSpelled).1 hbares
      have hmem := View.mem_of_recordAll (hwithin.kept path slot hslot)
      have hstored := hlast _ hmem _ List.mem_cons_self
      exact hsource.above.2 (Pattern.segments_eq_of_storedBefore hstored hsource.above.1).symm

/-- A table that is read is loaded, and the store realizes the view of its
rows. -/
theorem ofTable_realizes {table : List (String × ρ)} {rules : List (Pattern × ρ)}
    (h : parseTable table = .ok rules) :
    ∃ store logged, ofTable table = .ok (store, logged) ∧ store.Realizes (View.ofRows rules) := by
  refine ⟨_, _, ofTable_eq_ok_iff.2 ⟨rules, h, rfl, rfl⟩, ?_⟩
  have hsorted := sorted_mergeSort rules
  have hpatterns : ∀ e ∈ rules.mergeSort (fun a b => a.1.storedBefore b.1), e.1.WellFormed := by
    intro e he
    exact parseTable_wellFormed h e (List.mem_mergeSort.1 he)
  have hview : View.recordAll (rules.mergeSort fun a b => a.1.storedBefore b.1)
      = View.ofRows rules := by
    rw [View.recordAll_eq_ofRows hsorted]
    exact View.ofRows_congr (lastRule_mergeSort rules)
  obtain ⟨hwithin, hcovers⟩ := insertAll_covers hpatterns hsorted
  rw [hview] at hwithin hcovers
  exact ⟨hwithin, hcovers, insertAll_pruned hpatterns hsorted⟩

/-- So it is for every table that is loaded. -/
theorem rows_of_ofTable {table : List (String × ρ)} {store : RuleStore ρ} {logged : Array Log.Event}
    (h : ofTable table = .ok (store, logged)) :
    ∃ rules, parseTable table = .ok rules ∧ store.Realizes (View.ofRows rules) := by
  obtain ⟨rules, hrules, -⟩ := ofTable_eq_ok_iff.1 h
  obtain ⟨loaded, events, hload, hrealizes⟩ := ofTable_realizes hrules
  cases h.symm.trans hload
  exact ⟨rules, hrules, hrealizes⟩

end RuleStore

end LayeredLexer
