/-
What a table of rules means. A table lists rules for patterns, in any
order; `Prescribes` says which rule it gives to a name, in terms of the
rows alone. A name gets the rule of the row for it alone, and else that
of the longest path at or above it that has a starred row and no plain
one, since a plain row takes the starred one of its path away.

# The order of the rows

`ofTable` puts outer rows first and, on one path, the starred row before
the plain one. So when a row is put, nothing is stored at or below its
path but that starred twin (`eq_starred_of_storedBefore`). Two things
follow. The view that keeps every row records them without loss
(`Holds.record`). And no row strands another that was dropped as
redundant: what a call changes is inherited strictly below its path,
where there is nothing yet. So the store and the view answer alike, by
the comparison of the two.
-/
import LayeredLexer.Proofs.Rule.Dropping
import Mathlib

namespace LayeredLexer

variable {ρ : Type}

-- ================================================================ order

namespace Pattern

/-- Paths are compared as lists of texts. -/
theorem comparePaths_spec (a b : List String) :
    match comparePaths a b with
    | .lt => a < b
    | .eq => a = b
    | .gt => b < a := by
  induction a generalizing b with
  | nil =>
      cases b with
      | nil => rfl
      | cons t bs => exact List.nil_lt_cons t bs
  | cons s as ih =>
      cases b with
      | nil => exact List.nil_lt_cons s as
      | cons t bs =>
          rw [comparePaths]
          by_cases hst : s = t
          · subst hst
            rw [if_pos rfl]
            have hrest := ih bs
            cases hcompare : comparePaths as bs with
            | lt =>
                rw [hcompare] at hrest
                exact List.cons_lt_cons_iff.2 (.inr ⟨rfl, hrest⟩)
            | eq =>
                rw [hcompare] at hrest
                exact congrArg (s :: ·) hrest
            | gt =>
                rw [hcompare] at hrest
                exact List.cons_lt_cons_iff.2 (.inr ⟨rfl, hrest⟩)
          · rw [if_neg hst]
            by_cases hless : s < t
            · rw [if_pos hless]
              exact List.cons_lt_cons_iff.2 (.inl hless)
            · rw [if_neg hless]
              rcases Std.lt_trichotomy s t with h | h | h
              · exact absurd h hless
              · exact absurd h hst
              · exact List.cons_lt_cons_iff.2 (.inl h)

theorem storedBefore_iff {a b : Pattern} :
    a.storedBefore b
      ↔ a.segments < b.segments
        ∨ a.segments = b.segments ∧ (a.wildcard = true ∨ b.wildcard = false) := by
  have hspec := comparePaths_spec a.segments b.segments
  unfold storedBefore
  cases hcompare : comparePaths a.segments b.segments with
  | lt =>
      rw [hcompare] at hspec
      exact ⟨fun _ => .inl hspec, fun _ => rfl⟩
  | eq =>
      rw [hcompare] at hspec
      have hspec : a.segments = b.segments := hspec
      simp [hspec]
  | gt =>
      rw [hcompare] at hspec
      have hspec : b.segments < a.segments := hspec
      constructor
      · exact fun h => nomatch h
      · rintro (hless | ⟨heq, -⟩)
        · exact absurd hless (List.lt_asymm hspec)
        · rw [heq] at hspec
          exact absurd hspec (List.lt_irrefl _)

theorem storedBefore_trans {a b c : Pattern} (hab : a.storedBefore b) (hbc : b.storedBefore c) :
    a.storedBefore c := by
  rw [storedBefore_iff] at *
  rcases hab with hab | ⟨hab, hstarAb⟩
  · rcases hbc with hbc | ⟨hbc, -⟩
    · exact .inl (List.lt_trans hab hbc)
    · exact .inl (hbc ▸ hab)
  · rw [hab]
    rcases hbc with hbc | ⟨hbc, hstarBc⟩
    · exact .inl hbc
    · refine .inr ⟨hbc, ?_⟩
      rcases hstarBc with hstar | hplain
      · exact hstarAb.imp_right fun hplain => absurd hstar (by simp [hplain])
      · exact .inr hplain

theorem storedBefore_refl (a : Pattern) : a.storedBefore a :=
  storedBefore_iff.2 (.inr ⟨rfl, Bool.eq_false_or_eq_true a.wildcard⟩)

theorem storedBefore_total (a b : Pattern) : a.storedBefore b ∨ b.storedBefore a := by
  rw [storedBefore_iff, storedBefore_iff]
  rcases Std.lt_trichotomy a.segments b.segments with h | h | h
  · exact .inl (.inl h)
  · cases hstar : a.wildcard with
    | true => exact .inl (.inr ⟨h, .inl rfl⟩)
    | false => exact .inr (.inr ⟨h.symm, .inr rfl⟩)
  · exact .inr (.inl h)

/-- What is stored before a pattern is not strictly below its path. -/
theorem segments_eq_of_storedBefore {a b : Pattern} (h : a.storedBefore b)
    (hbelow : b.segments <+: a.segments) : a.segments = b.segments := by
  rcases storedBefore_iff.1 h with hless | ⟨hpath, -⟩
  · exact absurd hless (List.not_lt.2 hbelow.le)
  · exact hpath

/-- Of what is stored before a pattern only its starred twin is at or
below its path. -/
theorem eq_starred_of_storedBefore {a b : Pattern} (h : a.storedBefore b) (hne : a ≠ b)
    (hbelow : b.segments <+: a.segments) : a = ⟨b.segments, true⟩ ∧ b.wildcard = false := by
  obtain ⟨path, star⟩ := a
  obtain ⟨path', star'⟩ := b
  have hpath : path = path' := segments_eq_of_storedBefore h hbelow
  subst hpath
  have hstar : star = true ∨ star' = false := by
    rcases storedBefore_iff.1 h with hless | ⟨-, hstar⟩
    · exact absurd hless (List.lt_irrefl _)
    · exact hstar
  cases star with
  | true =>
      cases star' with
      | true => exact absurd rfl hne
      | false => exact ⟨rfl, rfl⟩
  | false =>
      cases star' with
      | true => exact absurd hstar (by simp)
      | false => exact absurd rfl hne

end Pattern

-- ================================================================ tables

/-- A table has a row that gives the rule for the pattern. -/
def Lists (table : List (String × ρ)) (p : Pattern) (rule : ρ) : Prop :=
  ∃ text, (text, rule) ∈ table ∧ Pattern.parse text = .ok p

/-- The rule that a table gives to a name. A starred row counts unless a
plain row is on the same path. -/
inductive Prescribes (table : List (String × ρ)) (name : Pattern) : Option ρ → Prop
  | own {rule : ρ} (row : Lists table name rule) : Prescribes table name (some rule)
  | longest {path : List String} {rule : ρ}
      (notOwn : ∀ rule, ¬ Lists table name rule)
      (covers : path <+: name.segments)
      (row : Lists table ⟨path, true⟩ rule)
      (unreplaced : ∀ rule, ¬ Lists table ⟨path, false⟩ rule)
      (longest : ∀ path' rule', path' <+: name.segments → Lists table ⟨path', true⟩ rule' →
        (∀ rule, ¬ Lists table ⟨path', false⟩ rule) → path'.length ≤ path.length) :
      Prescribes table name (some rule)
  | none
      (notOwn : ∀ rule, ¬ Lists table name rule)
      (uncovered : ∀ path rule, path <+: name.segments → Lists table ⟨path, true⟩ rule →
        ∃ rule', Lists table ⟨path, false⟩ rule') :
      Prescribes table name none

namespace RuleStore

/-- A table whose patterns are all valid can be read. -/
theorem parseTable_of_valid {table : List (String × ρ)}
    (hvalid : ∀ row ∈ table, ∃ p, Pattern.parse row.1 = .ok p) :
    ∃ rules, parseTable table = .ok rules := by
  induction table with
  | nil => exact ⟨[], rfl⟩
  | cons row table ih =>
      obtain ⟨p, hparse⟩ := hvalid row List.mem_cons_self
      obtain ⟨rest, hrest⟩ := ih fun row hrow => hvalid row (List.mem_cons_of_mem _ hrow)
      exact ⟨_, parseTable_cons_eq_ok_iff.2 ⟨p, rest, hparse, hrest, rfl⟩⟩

/-- What is read from a table is what it lists. -/
theorem mem_parseTable {table : List (String × ρ)} {rules : List (Pattern × ρ)}
    (h : parseTable table = .ok rules) {p : Pattern} {rule : ρ} :
    (p, rule) ∈ rules ↔ Lists table p rule := by
  induction table generalizing rules with
  | nil =>
      cases h
      constructor
      · exact fun h => nomatch h
      · rintro ⟨text, hrow, -⟩
        cases hrow
  | cons row table ih =>
      obtain ⟨text, rule'⟩ := row
      obtain ⟨q, rest, hparse, hrest, rfl⟩ := parseTable_cons_eq_ok_iff.1 h
      rw [List.mem_cons, ih hrest]
      constructor
      · rintro (heq | ⟨text', hrow, hread⟩)
        · cases heq
          exact ⟨text, List.mem_cons_self, hparse⟩
        · exact ⟨text', List.mem_cons_of_mem _ hrow, hread⟩
      · rintro ⟨text', hrow, hread⟩
        rcases List.mem_cons.1 hrow with heq | hrow
        · cases heq
          rw [hparse] at hread
          cases hread
          exact .inl rfl
        · exact .inr ⟨text', hrow, hread⟩

/-- Rows that differ in their canonical texts are read as different
patterns. -/
theorem parseTable_pairwise {table : List (String × ρ)} {rules : List (Pattern × ρ)}
    (h : parseTable table = .ok rules)
    (hdistinct : table.Pairwise fun a b => ∀ p q, Pattern.parse a.1 = .ok p →
      Pattern.parse b.1 = .ok q → p.display ≠ q.display) :
    rules.Pairwise fun a b => a.1 ≠ b.1 := by
  induction table generalizing rules with
  | nil =>
      cases h
      exact List.Pairwise.nil
  | cons row table ih =>
      obtain ⟨hfirst, hlater⟩ := List.pairwise_cons.1 hdistinct
      obtain ⟨p, rest, hparse, hrest, rfl⟩ := parseTable_cons_eq_ok_iff.1 h
      refine List.pairwise_cons.2 ⟨?_, ih hrest hlater⟩
      rintro ⟨q, rule⟩ hq heq
      obtain ⟨text, hrow, hread⟩ := (mem_parseTable hrest).1 hq
      exact hfirst _ hrow p q hparse hread (congrArg Pattern.display heq)

theorem parseTable_eq_ok {table : List (String × ρ)}
    (hvalid : ∀ row ∈ table, ∃ p, Pattern.parse row.1 = .ok p)
    (hdistinct : table.Pairwise fun a b => ∀ p q, Pattern.parse a.1 = .ok p →
      Pattern.parse b.1 = .ok q → p.display ≠ q.display) :
    ∃ rules, parseTable table = .ok rules
      ∧ (∀ p rule, (p, rule) ∈ rules ↔ Lists table p rule)
      ∧ rules.Pairwise fun a b => a.1 ≠ b.1 := by
  obtain ⟨rules, hrules⟩ := parseTable_of_valid hvalid
  exact ⟨rules, hrules, fun _ _ => mem_parseTable hrules, parseTable_pairwise hrules hdistinct⟩

end RuleStore

-- ====================================================== the view of a table

namespace View

/-- Records rules one after the other. -/
def recordAll (rules : List (Pattern × ρ)) : View ρ :=
  rules.foldl (fun view (pattern, rule) => view.record pattern rule) empty

theorem recordAll_snoc (rules : List (Pattern × ρ)) (p : Pattern) (rule : ρ) :
    recordAll (rules ++ [(p, rule)]) = (recordAll rules).record p rule := by
  rw [recordAll, List.foldl_append]
  rfl

/-- Whatever a view holds after rules were recorded is one of them. -/
theorem mem_of_recordAll {rules : List (Pattern × ρ)} {path : List String} {slot : Slot ρ}
    (h : recordAll rules path = some slot) : (slot.pattern path, slot.rule) ∈ rules := by
  induction rules using List.reverseRecOn with
  | nil => cases h
  | append_singleton rules e ih =>
      obtain ⟨p, rule⟩ := e
      rw [recordAll_snoc, View.record] at h
      by_cases hpath : path = p.segments
      · rw [if_pos hpath] at h
        cases h
        rw [hpath, Slot.pattern, Bool.not_not]
        exact List.mem_append_right _ List.mem_cons_self
      · rw [if_neg hpath] at h
        split at h
        · cases h
        · exact List.mem_append_left _ (ih h)

/-- A view that has lost no rule, but for the starred ones that a plain
one has replaced. -/
structure Holds (view : View ρ) (rules : List (Pattern × ρ)) : Prop where
  own : ∀ path rule, view path = some ⟨rule, true⟩ ↔ (⟨path, false⟩, rule) ∈ rules
  passed : ∀ path rule, view path = some ⟨rule, false⟩
    ↔ (⟨path, true⟩, rule) ∈ rules ∧ ∀ rule', (⟨path, false⟩, rule') ∉ rules

variable {view : View ρ} {rules : List (Pattern × ρ)} {p : Pattern}

theorem Holds.mem (h : view.Holds rules) {path : List String} {slot : Slot ρ}
    (hslot : view path = some slot) : (slot.pattern path, slot.rule) ∈ rules := by
  obtain ⟨rule, exact⟩ := slot
  cases exact with
  | true => exact (h.own path rule).1 hslot
  | false => exact ((h.passed path rule).1 hslot).1

/-- Recording a rule keeps to this if all rules before it are stored
before it. -/
theorem Holds.record (h : view.Holds rules) (rule : ρ)
    (hbefore : ∀ e ∈ rules, e.1.storedBefore p ∧ e.1 ≠ p) :
    (view.record p rule).Holds (rules ++ [(p, rule)]) := by
  obtain ⟨path, star⟩ := p
  have hbelow : ∀ q star' rule', (⟨q, star'⟩, rule') ∈ rules → path <+: q →
      q = path ∧ star' = true ∧ star = false := by
    intro q star' rule' hmem hunder
    obtain ⟨hstored, hne⟩ := hbefore _ hmem
    obtain ⟨heq, hplain⟩ := Pattern.eq_starred_of_storedBefore hstored hne hunder
    cases heq
    exact ⟨rfl, rfl, hplain⟩
  have hrecorded : ∀ q, view.record ⟨path, star⟩ rule q
      = if q = path then some ⟨rule, !star⟩ else view q := by
    intro q
    rw [View.record]
    by_cases hq : q = path
    · rw [if_pos hq, if_pos hq]
    · rw [if_neg hq, if_neg hq]
      split
      next hunder =>
        -- a starred pattern empties paths that hold nothing
        cases hslot : view q with
        | none => rfl
        | some slot => exact absurd (hbelow _ _ _ (h.mem hslot) hunder.2).1 hq
      · rfl
  have hlisted : ∀ q star' rule', q ≠ path →
      ((⟨q, star'⟩, rule') ∈ rules ++ [(⟨path, star⟩, rule)] ↔ (⟨q, star'⟩, rule') ∈ rules) := by
    intro q star' rule' hq
    simp [hq]
  constructor
  · intro q rule'
    rw [hrecorded]
    by_cases hq : q = path
    · subst hq
      have hnew : (⟨q, false⟩, rule') ∉ rules := fun hmem =>
        Bool.false_ne_true (hbelow _ _ _ hmem List.prefix_rfl).2.1
      cases star <;> simp [hnew, eq_comm]
    · rw [if_neg hq, hlisted q false rule' hq, h.own]
  · intro q rule'
    rw [hrecorded]
    by_cases hq : q = path
    · subst hq
      have hnew : ∀ rule', (⟨q, false⟩, rule') ∉ rules := fun rule' hmem =>
        Bool.false_ne_true (hbelow _ _ _ hmem List.prefix_rfl).2.1
      cases star with
      | true =>
          have htwin : (⟨q, true⟩, rule') ∉ rules := fun hmem =>
            Bool.false_ne_true (hbelow _ _ _ hmem List.prefix_rfl).2.2.symm
          simp [hnew, htwin, eq_comm]
      | false =>
          constructor
          · intro heq
            simp at heq
          · intro hrow
            exact absurd (List.mem_append_right _ List.mem_cons_self) (hrow.2 rule)
    · rw [if_neg hq, hlisted q true rule' hq, h.passed]
      simp only [hlisted q false _ hq]

/-- Rows in their order, no two with one pattern, are all recorded. -/
theorem recordAll_holds {rules : List (Pattern × ρ)}
    (hsorted : rules.Pairwise fun a b => a.1.storedBefore b.1 ∧ a.1 ≠ b.1) :
    (recordAll rules).Holds rules := by
  induction rules using List.reverseRecOn with
  | nil => constructor <;> intro path rule <;> simp [recordAll, empty]
  | append_singleton rules e ih =>
      obtain ⟨p, rule⟩ := e
      obtain ⟨hrest, -, hlast⟩ := List.pairwise_append.1 hsorted
      rw [recordAll_snoc]
      exact (ih hrest).record rule fun e he => hlast e he _ List.mem_cons_self

end View

-- ========================================================= putting the rows

namespace RuleStore

variable [DecidableEq ρ]

/-- Rows in their order strand nothing: what is recorded when a row is put
is not strictly below its path. -/
theorem not_strands {store : RuleStore ρ} {rules : List (Pattern × ρ)} {p : Pattern} {rule : ρ}
    (hdistinct : store.Distinct) (hbefore : ∀ e ∈ rules, e.1.storedBefore p) :
    ¬ store.Strands (View.recordAll rules) p rule := by
  rintro ⟨-, path, hother, hheld, -, hchanged⟩
  obtain ⟨slot, hslot⟩ := Option.isSome_iff_exists.1 hheld
  have hstored := hbefore _ (View.mem_of_recordAll hslot)
  exact hchanged (inherited?_insert hdistinct (Pattern.segments_eq_of_storedBefore hstored))

/-- After rows in their order, the store answers like the view that keeps
them all. -/
theorem insertAll_covers {rules : List (Pattern × ρ)} (hpatterns : ∀ e ∈ rules, e.1.WellFormed)
    (hsorted : rules.Pairwise fun a b => a.1.storedBefore b.1) :
    (empty.insertAll rules).1.Within (View.recordAll rules)
      ∧ (empty.insertAll rules).1.Covers (View.recordAll rules) := by
  induction rules using List.reverseRecOn with
  | nil => exact ⟨Within.empty, Covers.empty⟩
  | append_singleton rules e ih =>
      obtain ⟨p, rule⟩ := e
      obtain ⟨hrest, -, hlast⟩ := List.pairwise_append.1 hsorted
      obtain ⟨hwithin, hcovers⟩ := ih (fun e he => hpatterns e (List.mem_append_left _ he)) hrest
      rw [insertAll_snoc, View.recordAll_snoc]
      constructor
      · exact hwithin.insert (hpatterns _ (List.mem_append_right _ List.mem_cons_self)) rule
      · refine (hwithin.covers_insert_iff hcovers).2 ?_
        exact not_strands hwithin.wellFormed.distinct fun e he => hlast e he _ List.mem_cons_self

/-- And if no two rows have one pattern, the view has lost none. -/
theorem insertAll_holds {rules : List (Pattern × ρ)} (hpatterns : ∀ e ∈ rules, e.1.WellFormed)
    (hsorted : rules.Pairwise fun a b => a.1.storedBefore b.1 ∧ a.1 ≠ b.1) :
    (empty.insertAll rules).1.Within (View.recordAll rules)
      ∧ (empty.insertAll rules).1.Covers (View.recordAll rules)
      ∧ (View.recordAll rules).Holds rules := by
  obtain ⟨hwithin, hcovers⟩ := insertAll_covers hpatterns (hsorted.imp And.left)
  exact ⟨hwithin, hcovers, View.recordAll_holds hsorted⟩

end RuleStore

-- ============================================================ the meaning

section Meaning

variable {table : List (String × ρ)} {rules : List (Pattern × ρ)} {view : View ρ} {name : Pattern}
  (hlists : ∀ p rule, (p, rule) ∈ rules ↔ Lists table p rule) (hholds : view.Holds rules)

include hlists hholds

theorem View.Holds.own_iff (hplain : name.wildcard = false) {rule : ρ} :
    view.own name.segments = some rule ↔ Lists table name rule := by
  rw [View.own_eq_some_iff, hholds.own, hlists, ← hplain]

theorem View.Holds.own_none_iff (hplain : name.wildcard = false) :
    view.own name.segments = none ↔ ∀ rule, ¬ Lists table name rule := by
  simp only [← hholds.own_iff hlists hplain, Option.eq_none_iff_forall_ne_some, ne_eq]

theorem View.Holds.passed_iff {path : List String} {rule : ρ} :
    view.passed path = some rule
      ↔ Lists table ⟨path, true⟩ rule ∧ ∀ rule', ¬ Lists table ⟨path, false⟩ rule' := by
  rw [View.passed_eq_some_iff, hholds.passed, hlists]
  simp only [hlists]

/-- What a table prescribes is what the view of its rows says. -/
theorem prescribes_iff (hplain : name.wildcard = false) {answer : Option ρ} :
    Prescribes table name answer ↔ answer = view.answer name.segments := by
  rw [← View.says_iff]
  constructor
  · intro hprescribes
    cases hprescribes with
    | own row => exact .own ((hholds.own_iff hlists hplain).2 row)
    | longest notOwn covers row unreplaced longest =>
        refine .longest ((hholds.own_none_iff hlists hplain).2 notOwn) covers
          ((hholds.passed_iff hlists).2 ⟨row, unreplaced⟩) fun path' rule' covers' hrule' => ?_
        obtain ⟨row', unreplaced'⟩ := (hholds.passed_iff hlists).1 hrule'
        exact longest path' rule' covers' row' unreplaced'
    | none notOwn uncovered =>
        refine .none ((hholds.own_none_iff hlists hplain).2 notOwn) fun path rule covers hrule => ?_
        obtain ⟨row, unreplaced⟩ := (hholds.passed_iff hlists).1 hrule
        obtain ⟨rule', row'⟩ := uncovered path rule covers row
        exact unreplaced rule' row'
  · intro hsays
    cases hsays with
    | own own => exact .own ((hholds.own_iff hlists hplain).1 own)
    | longest notOwn covers passed longest =>
        obtain ⟨row, unreplaced⟩ := (hholds.passed_iff hlists).1 passed
        refine .longest ((hholds.own_none_iff hlists hplain).1 notOwn) covers row unreplaced ?_
        intro path' rule' covers' row' unreplaced'
        exact longest path' rule' covers' ((hholds.passed_iff hlists).2 ⟨row', unreplaced'⟩)
    | none notOwn uncovered =>
        refine .none ((hholds.own_none_iff hlists hplain).1 notOwn) fun path rule covers row => ?_
        by_contra hfree
        refine uncovered path rule covers ((hholds.passed_iff hlists).2 ⟨row, fun rule' row' => ?_⟩)
        exact hfree ⟨rule', row'⟩

end Meaning

namespace RuleStore

theorem rows_trans (a b c : Pattern × ρ) (hab : a.1.storedBefore b.1) (hbc : b.1.storedBefore c.1) :
    a.1.storedBefore c.1 := Pattern.storedBefore_trans hab hbc

theorem rows_total (a b : Pattern × ρ) : (a.1.storedBefore b.1 || b.1.storedBefore a.1) = true :=
  Bool.or_eq_true_iff.2 (Pattern.storedBefore_total a.1 b.1)

/-- The rows of a table are put in their order. -/
theorem sorted_mergeSort (rules : List (Pattern × ρ)) :
    (rules.mergeSort fun a b => a.1.storedBefore b.1).Pairwise fun a b => a.1.storedBefore b.1 :=
  List.pairwise_mergeSort rows_trans rows_total rules

/-- The rows of a valid table in the order in which they are put. -/
theorem storedBefore_mergeSort {rules : List (Pattern × ρ)}
    (hdifferent : rules.Pairwise fun a b => a.1 ≠ b.1) :
    (rules.mergeSort fun a b => a.1.storedBefore b.1).Pairwise
      fun a b => a.1.storedBefore b.1 ∧ a.1 ≠ b.1 := by
  have hperm := List.mergeSort_perm rules fun a b => a.1.storedBefore b.1
  exact (sorted_mergeSort rules).and ((hperm.pairwise_iff fun hne => hne.symm).2 hdifferent)

variable [DecidableEq ρ]

/-- A table of valid patterns that differ in their canonical texts can be
loaded, in any order of its rows, and every valid name gets the rule that
the table prescribes. -/
theorem ofTable_prescribes {table : List (String × ρ)}
    (hvalid : ∀ row ∈ table, ∃ p, Pattern.parse row.1 = .ok p)
    (hdistinct : table.Pairwise fun a b => ∀ p q, Pattern.parse a.1 = .ok p →
      Pattern.parse b.1 = .ok q → p.display ≠ q.display) :
    ∃ store logged, ofTable table = .ok (store, logged)
      ∧ ∀ text name, Pattern.name text = .ok name →
          ∃ answer, store.get text = .ok answer
            ∧ ∀ answer', Prescribes table name answer' ↔ answer' = answer := by
  obtain ⟨rules, hrules, hlists, hdifferent⟩ := parseTable_eq_ok hvalid hdistinct
  have hsorted := storedBefore_mergeSort hdifferent
  have hperm := List.mergeSort_perm rules fun a b => a.1.storedBefore b.1
  have hload : ofTable table
      = .ok (empty.insertAll (rules.mergeSort fun a b => a.1.storedBefore b.1)) := by
    rw [ofTable, hrules]
    rfl
  generalize rules.mergeSort (fun a b => a.1.storedBefore b.1) = sorted at hsorted hperm hload
  have hpatterns : ∀ e ∈ sorted, e.1.WellFormed := fun e he =>
    parseTable_wellFormed hrules e (hperm.mem_iff.1 he)
  have hlists : ∀ p rule, (p, rule) ∈ sorted ↔ Lists table p rule := fun p rule => by
    rw [hperm.mem_iff, hlists]
  obtain ⟨hwithin, hcovers, hholds⟩ := insertAll_holds hpatterns hsorted
  refine ⟨(empty.insertAll sorted).1, (empty.insertAll sorted).2, hload, fun text name hname => ?_⟩
  have hplain := (Pattern.name_eq_ok_iff.1 hname).2
  refine ⟨(View.recordAll sorted).answer name.segments, ?_, fun answer' => ?_⟩
  · rw [hwithin.get_eq_iff.2 hcovers text, View.get, hname]
    rfl
  · exact prescribes_iff hlists hholds hplain

/-- A table in no order, in both spellings, with a plain row in the place
of a starred one. -/
def mixedTable : List (String × String) :=
  [("a/b", "alone"), ("a.b.*", "inner"), ("a/*", "outer"), ("*", "all")]

theorem ofTable_prescribes_mixed_table :
    (∀ row ∈ mixedTable, ∃ p, Pattern.parse row.1 = .ok p)
      ∧ (mixedTable.Pairwise fun a b => ∀ p q, Pattern.parse a.1 = .ok p →
          Pattern.parse b.1 = .ok q → p.display ≠ q.display)
      ∧ ∃ store logged, ofTable mixedTable = .ok (store, logged)
        ∧ store.get "a.b.c" = .ok (some "outer")
        ∧ Prescribes mixedTable ⟨["a", "b", "c"], false⟩ (some "outer") := by
  have hvalid : ∀ row ∈ mixedTable, ∃ p, Pattern.parse row.1 = .ok p := by
    unfold mixedTable
    simp only [List.forall_mem_cons]
    exact ⟨⟨_, rfl⟩, ⟨_, rfl⟩, ⟨_, rfl⟩, ⟨_, rfl⟩, fun _ h => nomatch h⟩
  have hdistinct : mixedTable.Pairwise fun a b => ∀ p q, Pattern.parse a.1 = .ok p →
      Pattern.parse b.1 = .ok q → p.display ≠ q.display := by
    have hkeys : (mixedTable.map fun row => (Pattern.parse row.1).map Pattern.display).Pairwise
        fun a b => a.toOption ≠ b.toOption := by
      decide +kernel
    refine (List.pairwise_map.1 hkeys).imp fun {a b} hne p q hp hq heq => hne ?_
    rw [hp, hq, Except.map, Except.map, heq]
  obtain ⟨store, logged, hload, hlookup⟩ := ofTable_prescribes hvalid hdistinct
  obtain ⟨answer, hanswer, hprescribes⟩ := hlookup "a.b.c" ⟨["a", "b", "c"], false⟩ (by rfl)
  have hget : (ofTable mixedTable).bind (fun loaded => loaded.1.get "a.b.c")
      = .ok (some "outer") := by
    cbv
  rw [hload] at hget
  have hget : store.get "a.b.c" = .ok (some "outer") := hget
  rw [hget] at hanswer
  cases hanswer
  exact ⟨hvalid, hdistinct, store, logged, hload, hget, (hprescribes _).2 rfl⟩

end RuleStore

end LayeredLexer
