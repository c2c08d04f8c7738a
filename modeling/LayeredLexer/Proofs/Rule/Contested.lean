/-
Tables whose rows may be listed in any order. The rows of a table are
sorted before they are put, and the sort tells patterns apart, not rows.
So the order of the table is lost, except among rows of one pattern,
where the last one counts: `a.b` and `a/b` are two keys and one pattern.

# When the order matters

A pattern is contested if its rows do not agree on a rule. Then the rows
can be listed so that either rule is the last one, and the two stores
differ (`exists_order`). Only the starred rows of a path that has a plain
row as well may disagree, since none of them is kept. Where no pattern is
contested, what is left on each path can be said without the order of the
rows (`ofRows_of_uncontested`), so every order loads the same.
-/
import LayeredLexer.Proofs.Rule.Rows

namespace LayeredLexer

variable {ρ : Type}

/-- Two rows of a table give one pattern different rules, and no plain
row takes the place of both. -/
def Contested (table : List (String × ρ)) : Prop :=
  ∃ p rule rule', Lists table p rule ∧ Lists table p rule' ∧ rule ≠ rule'
    ∧ (p.wildcard = true → ∀ plain, ¬ Lists table ⟨p.segments, false⟩ plain)

/-- What a table lists does not depend on its order. -/
theorem lists_perm {table other : List (String × ρ)} (h : other.Perm table) {p : Pattern}
    {rule : ρ} : Lists other p rule ↔ Lists table p rule := by
  unfold Lists
  simp only [h.mem_iff]

namespace RuleStore

-- ======================================================== agreeing tables

section Uncontested

variable {table : List (String × ρ)} (huncontested : ¬ Contested table)
  {rules : List (Pattern × ρ)} (hrules : ∀ p rule, (p, rule) ∈ rules ↔ Lists table p rule)

include huncontested hrules

/-- Where no pattern is contested, the last rule of a pattern is the one
that is listed for it. -/
theorem lastRule_of_uncontested {p : Pattern}
    (hfree : p.wildcard = true → ∀ plain, ¬ Lists table ⟨p.segments, false⟩ plain) {rule : ρ} :
    lastRule rules p = some rule ↔ Lists table p rule := by
  rw [lastRule_eq_some_iff, hrules]
  intro held held' hmem hmem'
  by_contra hne
  exact huncontested ⟨p, held, held', (hrules _ _).1 hmem, (hrules _ _).1 hmem', hne, hfree⟩

/-- What is left on a path is then said without the order of the rows. -/
theorem ofRows_of_uncontested {path : List String} {slot : Slot ρ} :
    View.ofRows rules path = some slot
      ↔ Lists table (slot.pattern path) slot.rule
        ∧ ((slot.pattern path).wildcard = true → ∀ plain, ¬ Lists table ⟨path, false⟩ plain) := by
  rw [View.ofRows_eq_some_iff]
  simp only [hrules]
  apply and_congr_left
  intro hfree
  exact lastRule_of_uncontested huncontested hrules hfree

end Uncontested

-- ===================================================== disagreeing tables

/-- A row that is listed last is read last. -/
theorem parseTable_snoc {table : List (String × ρ)} {text : String} {rule : ρ}
    {rules : List (Pattern × ρ)} (h : parseTable (table ++ [(text, rule)]) = .ok rules) :
    ∃ p rest, Pattern.parse text = .ok p ∧ rules = rest ++ [(p, rule)] := by
  induction table generalizing rules with
  | nil =>
      obtain ⟨p, rest, hparse, hrest, rfl⟩ := parseTable_cons_eq_ok_iff.1 h
      cases hrest
      exact ⟨p, [], hparse, rfl⟩
  | cons row table ih =>
      obtain ⟨q, rest, -, hrest, rfl⟩ := parseTable_cons_eq_ok_iff.1 h
      obtain ⟨p, before, hparse, rfl⟩ := ih hrest
      exact ⟨p, (q, row.2) :: before, hparse, rfl⟩

/-- Each row can be listed last, and if no plain row takes its place, it
is the one that counts. -/
theorem exists_order {table : List (String × ρ)} {p : Pattern} {rule : ρ}
    (hrow : Lists table p rule)
    (hfree : p.wildcard = true → ∀ plain, ¬ Lists table ⟨p.segments, false⟩ plain) :
    ∃ other, other.Perm table ∧ ∀ rules, parseTable other = .ok rules →
      View.ofRows rules p.segments = some ⟨rule, !p.wildcard⟩ := by
  obtain ⟨text, hmem, hparse⟩ := hrow
  obtain ⟨before, after, rfl⟩ := List.append_of_mem hmem
  have hperm : (before ++ after ++ [(text, rule)]).Perm (before ++ (text, rule) :: after) :=
    (List.perm_append_singleton _ _).trans List.perm_middle.symm
  refine ⟨before ++ after ++ [(text, rule)], hperm, ?_⟩
  intro rules hrules
  have hfree : p.wildcard = true → ∀ plain, (⟨p.segments, false⟩, plain) ∉ rules := by
    intro hstar plain hmem
    exact hfree hstar plain ((lists_perm hperm).1 ((mem_parseTable hrules).1 hmem))
  obtain ⟨q, rest, hread, rfl⟩ := parseTable_snoc hrules
  rw [hparse] at hread
  cases hread
  apply View.ofRows_last hfree
  rw [lastRule_snoc, if_pos rfl]

-- ============================================================ every order

variable [DecidableEq ρ]

/-- A table can be loaded in any order of its rows with the same outcome
exactly if none of its patterns is contested. -/
theorem ofTable_perm_iff {table : List (String × ρ)}
    (hvalid : ∀ row ∈ table, ∃ p, Pattern.parse row.1 = .ok p) :
    (∀ other, other.Perm table → ∃ store logged store' logged',
        ofTable table = .ok (store, logged) ∧ ofTable other = .ok (store', logged')
          ∧ store'.entries = store.entries ∧ ∀ name, store'.get name = store.get name)
      ↔ ¬ Contested table := by
  constructor
  · rintro hsame ⟨p, rule, rule', hrow, hrow', hne, hfree⟩
    have hanswer : ∀ rule, Lists table p rule → ∃ store logged, ofTable table = .ok (store, logged)
        ∧ View.answer store.slot? p.segments = some rule := by
      intro rule hrow
      obtain ⟨other, hperm, hlast⟩ := exists_order hrow hfree
      obtain ⟨store, logged, store', logged', hload, hload', hentries, -⟩ := hsame other hperm
      obtain ⟨_, -, hstore⟩ := rows_of_ofTable hload
      obtain ⟨rules, hrules, hstore'⟩ := rows_of_ofTable hload'
      refine ⟨store, logged, hload, ?_⟩
      rw [← slot?_congr hstore'.wellFormed hstore.wellFormed hentries, hstore'.answer_eq,
        View.answer_of_some (hlast rules hrules)]
    obtain ⟨store, logged, hload, hstore⟩ := hanswer rule hrow
    obtain ⟨store', logged', hload', hstore'⟩ := hanswer rule' hrow'
    cases hload.symm.trans hload'
    exact hne (Option.some.inj (hstore.symm.trans hstore'))
  · intro huncontested other hperm
    have hvalid' : ∀ row ∈ other, ∃ p, Pattern.parse row.1 = .ok p :=
      fun row hrow => hvalid row (hperm.mem_iff.1 hrow)
    obtain ⟨rules, hrules⟩ := parseTable_of_valid hvalid
    obtain ⟨rules', hrules'⟩ := parseTable_of_valid hvalid'
    obtain ⟨store, logged, hload, hstore⟩ := ofTable_realizes hrules
    obtain ⟨store', logged', hload', hstore'⟩ := ofTable_realizes hrules'
    have hlists : ∀ p rule, (p, rule) ∈ rules' ↔ Lists table p rule := by
      intro p rule
      rw [mem_parseTable hrules', lists_perm hperm]
    have hview : View.ofRows rules' = View.ofRows rules := by
      funext path
      apply Option.ext
      intro slot
      rw [ofRows_of_uncontested huncontested hlists,
        ofRows_of_uncontested huncontested fun _ _ => mem_parseTable hrules]
    rw [hview] at hstore'
    exact ⟨store, logged, store', logged', hload, hload', hstore.unique hstore'⟩

/-- One pattern in both spellings, with two rules. -/
def spelledTwice : List (String × String) := [("a.b", "on"), ("a/b", "off")]

theorem spelledTwice_valid : ∀ row ∈ spelledTwice, ∃ p, Pattern.parse row.1 = .ok p := by
  unfold spelledTwice
  simp only [List.forall_mem_cons]
  exact ⟨⟨_, rfl⟩, ⟨_, rfl⟩, fun _ h => nomatch h⟩

theorem ofTable_perm_spelled_twice :
    (∀ row ∈ spelledTwice, ∃ p, Pattern.parse row.1 = .ok p)
      ∧ Contested spelledTwice
      ∧ ¬ ∀ other, other.Perm spelledTwice → ∃ store logged store' logged',
          ofTable spelledTwice = .ok (store, logged) ∧ ofTable other = .ok (store', logged')
            ∧ store'.entries = store.entries ∧ ∀ name, store'.get name = store.get name := by
  have hcontested : Contested spelledTwice := by
    refine ⟨⟨["a", "b"], false⟩, "on", "off", ⟨"a.b", ?_, rfl⟩, ⟨"a/b", ?_, rfl⟩, ?_, nofun⟩
    · exact List.mem_cons_self
    · exact List.mem_cons_of_mem _ List.mem_cons_self
    · decide
  refine ⟨spelledTwice_valid, hcontested, ?_⟩
  intro hsame
  exact (ofTable_perm_iff spelledTwice_valid).1 hsame hcontested

/-- The spelling that comes later has its rule kept. -/
theorem later_spelling_kept :
    [("a/b", "off"), ("a.b", "on")].Perm spelledTwice
      ∧ (ofTable spelledTwice).map (·.1.entries) = .ok [("a.b", "off")]
      ∧ (ofTable [("a/b", "off"), ("a.b", "on")]).map (·.1.entries) = .ok [("a.b", "on")]
      ∧ (ofTable spelledTwice).bind (·.1.get "a.b") = .ok (some "off")
      ∧ (ofTable [("a/b", "off"), ("a.b", "on")]).bind (·.1.get "a.b") = .ok (some "on") := by
  refine ⟨List.Perm.swap _ _ _, ?_, ?_, ?_, ?_⟩ <;> cbv

end RuleStore

end LayeredLexer
