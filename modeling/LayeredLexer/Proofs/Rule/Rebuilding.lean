/-
A store and the table of its own entries. The entries are texts and rules,
like the rows of any table, so a store can be loaded from them. What is
loaded answers every name like the store that was listed, and to list and
load it once more changes nothing.

# What the rows say

The entries of a store are read as the patterns that it holds, each with
its one rule (`lists_entries_iff`). No two of them are on one path, so no
row takes the place of another, and the view of the rows is the view of
the store (`ofRows_entries`).

# The fixed point

Entries that their path inherits anyway, as a history of calls may leave
them, are not loaded again. A loaded store has none, so it realizes its
own view; the store that is loaded from its entries realizes the same
view, and there is but one such listing.
-/
import LayeredLexer.Proofs.Rule.Rows

namespace LayeredLexer

variable {ρ : Type}

namespace RuleStore

variable {store : RuleStore ρ}

-- ========================================================== the own entries

/-- A store is within the view of what it holds. -/
theorem WellFormed.within_view (h : store.WellFormed) : store.Within store.slot? where
  wellFormed := h
  kept _ _ hslot := hslot
  root := rfl
  patterns _ _ hslot := h.patterns hslot

/-- And has dropped nothing of it. -/
theorem covers_view (store : RuleStore ρ) : store.Covers store.slot? := by
  intro path slot hslot hdropped
  rw [hslot] at hdropped
  cases hdropped

/-- The entries list the rules that the store holds. -/
theorem WellFormed.lists_entries_iff (h : store.WellFormed) {p : Pattern} {rule : ρ} :
    Lists store.entries p rule ↔ store.slot? p.segments = some ⟨rule, !p.wildcard⟩ := by
  constructor
  · intro hlisted
    obtain ⟨key, hkey, hparse⟩ := hlisted
    exact (h.slot?_of_mem_entries hkey hparse).2
  · intro hslot
    have hp : p.WellFormed := h.rule_wellFormed ((mem_rules h.distinct).2 hslot)
    exact ⟨p.display, (h.mem_entries_display hp.toSpelled).2 hslot, Pattern.parse_display hp⟩

/-- The view of the entries is that of the store. -/
theorem WellFormed.ofRows_entries (h : store.WellFormed) {rules : List (Pattern × ρ)}
    (hrules : parseTable store.entries = .ok rules) : View.ofRows rules = store.slot? := by
  have hmem : ∀ p rule, (p, rule) ∈ rules ↔ store.slot? p.segments = some ⟨rule, !p.wildcard⟩ := by
    intro p rule
    rw [mem_parseTable hrules, h.lists_entries_iff]
  have hlast : ∀ p rule, lastRule rules p = some rule ↔ (p, rule) ∈ rules := by
    intro p rule
    apply lastRule_eq_some_iff
    intro rule rule' hrule hrule'
    have hslot := ((hmem p rule).1 hrule).symm.trans ((hmem p rule').1 hrule')
    cases hslot
    rfl
  funext path
  apply Option.ext
  intro slot
  have hslot : (slot.pattern path, slot.rule) ∈ rules ↔ store.slot? path = some slot := by
    rw [hmem, Slot.pattern, Bool.not_not]
  rw [View.ofRows_eq_some_iff, hlast, hslot]
  constructor
  · exact And.left
  · intro hheld
    refine ⟨hheld, ?_⟩
    intro hstar plain hplain
    -- a path does not hold a plain rule and a starred one
    rw [hmem, hheld] at hplain
    cases hplain
    cases hstar

-- ================================================================ loading

variable [DecidableEq ρ]

/-- The entries of a store can be loaded, and what is loaded realizes what
the store holds. -/
theorem WellFormed.ofTable_entries (h : store.WellFormed) :
    ∃ rebuilt logged, ofTable store.entries = .ok (rebuilt, logged)
      ∧ rebuilt.Realizes store.slot? := by
  have hvalid : ∀ row ∈ store.entries, ∃ p, Pattern.parse row.1 = .ok p := by
    intro row hrow
    obtain ⟨p, hparse, -⟩ := h.parse_key hrow
    exact ⟨p, hparse⟩
  obtain ⟨rules, hrules⟩ := parseTable_of_valid hvalid
  rw [← h.ofRows_entries hrules]
  exact ofTable_realizes hrules

/-- A store that calls have built can be rebuilt from its entries: it is
loaded from them, every name is answered alike, and rebuilding it once
more leaves the entries as they are. -/
theorem entries_rebuild (h : store.Reachable) :
    ∃ rebuilt logged, ofTable store.entries = .ok (rebuilt, logged)
      ∧ (∀ text, rebuilt.get text = store.get text)
      ∧ ∃ again logged', ofTable rebuilt.entries = .ok (again, logged')
        ∧ again.entries = rebuilt.entries := by
  obtain ⟨rebuilt, logged, hload, hrebuilt⟩ := h.wellFormed.ofTable_entries
  refine ⟨rebuilt, logged, hload, ?_, ?_⟩
  · intro text
    rw [hrebuilt.toWithin.get_eq_iff.2 hrebuilt.covers, get_eq_view]
  · obtain ⟨again, logged', hreload, hagain⟩ := hrebuilt.wellFormed.ofTable_entries
    have hself : rebuilt.Realizes rebuilt.slot? :=
      ⟨hrebuilt.wellFormed.within_view, covers_view rebuilt, hrebuilt.pruned⟩
    exact ⟨again, logged', hreload, (hself.unique hagain).1⟩

/-- On below `a`, audit for `a.b` alone, and a rule for `a.b.c` that is
inherited there since `a.b` has lost its star. -/
def bared : RuleStore String := (empty.insertAll baringCalls).1

theorem entries_rebuild_bared :
    bared.Reachable
      ∧ bared.entries = [("a.*", "on"), ("a.b", "audit"), ("a.b.c", "on")]
      ∧ ∃ rebuilt logged, ofTable bared.entries = .ok (rebuilt, logged)
        ∧ rebuilt.entries = [("a.*", "on"), ("a.b", "audit")]
        ∧ rebuilt.get "a.b.c" = bared.get "a.b.c"
        ∧ ∃ again logged', ofTable rebuilt.entries = .ok (again, logged')
          ∧ again.entries = rebuilt.entries := by
  have hreach : bared.Reachable := by
    have houter : Pattern.parse "a.*" = .ok ⟨["a"], true⟩ := by rfl
    have hinner : Pattern.parse "a.b.*" = .ok ⟨["a", "b"], true⟩ := by rfl
    have hdeep : Pattern.parse "a.b.c" = .ok ⟨["a", "b", "c"], false⟩ := by rfl
    have hplain : Pattern.parse "a.b" = .ok ⟨["a", "b"], false⟩ := by rfl
    exact (((Reachable.empty.insert "on" houter).insert "off" hinner).insert "on" hdeep).insert
      "audit" hplain
  have hentries : bared.entries = [("a.*", "on"), ("a.b", "audit"), ("a.b.c", "on")] := by
    cbv
  obtain ⟨rebuilt, logged, hload, hget, hagain⟩ := entries_rebuild hreach
  refine ⟨hreach, hentries, rebuilt, logged, hload, ?_, hget _, hagain⟩
  have hlisted : (ofTable bared.entries).map (·.1.entries)
      = .ok [("a.*", "on"), ("a.b", "audit")] := by
    rw [hentries]
    cbv
  rw [hload] at hlisted
  exact Except.ok.inj hlisted

end RuleStore

end LayeredLexer
