/-
What becomes of a configured rule. A loaded table gives each rule to the
name of its own path, unless another row took its place; and the loading
of a configuration warns of the starred rows that a plain row replaced.
These are not all rows that are lost: a pattern that is configured in
both spellings has two rows, of which only the last one counts, and
nobody is told.

# What is warned of

The warnings come from a search of their own over the keys of the table
(`mem_doubledPaths`), not from the store that lost a rule. Nothing else
that is recorded while a table is loaded is a warning, so a pattern is
told to be dropped exactly if it is starred and its path has a plain row
(`warned_iff`).
-/
import LayeredLexer.Proofs.Rule.Contested
import LayeredLexer.Rule.Configured

namespace LayeredLexer

-- ================================================================ records

/-- What is logged while rules are put is no warning. -/
theorem RuleStore.insertAll_debug {ρ : Type} [DecidableEq ρ] (store : RuleStore ρ)
    (rules : List (Pattern × ρ)) : ∀ event ∈ (store.insertAll rules).2, event.level = .debug := by
  induction rules using List.reverseRecOn with
  | nil => exact fun event h => absurd h (Array.not_mem_empty event)
  | append_singleton rules e ih =>
      intro event h
      rw [insertAll, List.foldl_append] at h
      rcases Array.mem_push.1 h with h | h
      · exact ih event h
      · rw [h]
        rfl

theorem RuleStore.ofTable_debug {ρ : Type} [DecidableEq ρ] {table : List (String × ρ)}
    {store : RuleStore ρ} {events : Array Log.Event} (h : ofTable table = .ok (store, events)) :
    ∀ event ∈ events, event.level = .debug := by
  obtain ⟨rules, -, -, rfl⟩ := ofTable_eq_ok_iff.1 h
  exact insertAll_debug _ _

-- ================================================================ warnings

namespace Rules

theorem mem_validPatterns {rules : Dictionary String} {p : Pattern} :
    p ∈ validPatterns rules ↔ ∃ rule, Lists rules p rule := by
  have hread : ∀ text, (Pattern.parse text).toOption = some p ↔ Pattern.parse text = .ok p := by
    intro text
    cases Pattern.parse text <;> simp [Except.toOption]
  unfold validPatterns
  rw [List.mem_filterMap]
  constructor
  · rintro ⟨⟨text, rule⟩, hrow, hp⟩
    exact ⟨rule, text, hrow, (hread text).1 hp⟩
  · rintro ⟨rule, text, hrow, hp⟩
    exact ⟨(text, rule), hrow, (hread text).2 hp⟩

/-- The paths that are warned of have a plain row and a starred one. -/
theorem mem_doubledPaths {patterns : List Pattern} {path : List String} :
    path ∈ doubledPaths patterns
      ↔ (⟨path, false⟩ : Pattern) ∈ patterns ∧ (⟨path, true⟩ : Pattern) ∈ patterns := by
  unfold doubledPaths
  dsimp only
  rw [List.mem_eraseDups, List.mem_mergeSort, List.mem_map]
  constructor
  · rintro ⟨⟨segments, wildcard⟩, hp, rfl⟩
    obtain ⟨hmem, hdoubled⟩ := List.mem_filter.1 hp
    obtain ⟨hplain, hstarred⟩ := Bool.and_eq_true_iff.1 hdoubled
    cases wildcard with
    | true => cases hplain
    | false => exact ⟨hmem, List.contains_iff_mem.1 hstarred⟩
  · rintro ⟨hplain, hstarred⟩
    refine ⟨⟨path, false⟩, List.mem_filter.2 ⟨hplain, ?_⟩, rfl⟩
    exact Bool.and_eq_true_iff.2 ⟨rfl, List.contains_iff_mem.2 hstarred⟩

theorem replacement_dropped (path : List String) :
    (replacement path).context.get? "dropped" = some (Pattern.display ⟨path, true⟩) :=
  Dictionary.get?_insert_self _ _ _

end Rules

namespace Config

variable {config : Config} {session later : Log.Session} {store : RuleStore String}

/-- What is recorded while rules are loaded: the warnings, what is logged
while the rows are put, and that it is done. -/
theorem recorded_of_loadRules (hload : config.loadRules session = (.ok store, later)) :
    ∃ events, RuleStore.ofTable config.rules = .ok (store, events)
      ∧ later.events.toList.drop session.events.size
        = ((Rules.doubledPaths (Rules.validPatterns config.rules)).map Rules.replacement
            ++ events.toList
            ++ [Rules.completion config.rules.length store.size]).map session.tag := by
  rw [loadRules] at hload
  cases htable : RuleStore.ofTable config.rules with
  | error fault =>
      rw [htable] at hload
      cases hload
  | ok loaded =>
      obtain ⟨loaded, events⟩ := loaded
      rw [htable] at hload
      cases hload
      refine ⟨events, rfl, ?_⟩
      unfold Log.Session.record Log.Session.recordAll Log.Session.recordBare
      dsimp only
      rw [Array.toList_push, Array.toList_append, Array.toList_append, List.append_assoc,
        List.append_assoc, List.drop_left' (Array.length_toList)]
      rw [Array.toList_map, Array.toList_map, List.map_append, List.map_append, List.append_assoc]
      rfl

/-- A pattern is told to be dropped exactly if it is starred, and its path
is configured for its name alone as well. -/
theorem warned_iff (hload : config.loadRules session = (.ok store, later)) {p : Pattern}
    (hp : p.WellFormed) :
    (∃ event ∈ later.events.toList.drop session.events.size,
        event.level = .warning ∧ event.context.get? "dropped" = some p.display)
      ↔ p.wildcard = true ∧ (∃ rule, Lists config.rules p rule)
          ∧ ∃ plain, Lists config.rules ⟨p.segments, false⟩ plain := by
  obtain ⟨events, htable, hrecorded⟩ := recorded_of_loadRules hload
  rw [hrecorded]
  constructor
  · rintro ⟨event, hmem, hlevel, hdropped⟩
    obtain ⟨raised, hraised, rfl⟩ := List.mem_map.1 hmem
    rw [Log.Session.tag_level] at hlevel
    rw [Log.Session.tag_context _ _ (by decide)] at hdropped
    rcases List.mem_append.1 hraised with hraised | hdone
    · rcases List.mem_append.1 hraised with hwarning | hput
      · obtain ⟨path, hpath, rfl⟩ := List.mem_map.1 hwarning
        rw [Rules.replacement_dropped] at hdropped
        obtain ⟨hplain, hstarred⟩ := Rules.mem_doubledPaths.1 hpath
        obtain ⟨plain, hplain⟩ := Rules.mem_validPatterns.1 hplain
        obtain ⟨rule, hstarred⟩ := Rules.mem_validPatterns.1 hstarred
        obtain ⟨text, hrow, hread⟩ := hstarred
        have hshown := Pattern.display_injective (Pattern.wellFormed_of_parse hread).toSpelled
          hp.toSpelled (Option.some.inj hdropped)
        subst hshown
        exact ⟨rfl, ⟨rule, text, hrow, hread⟩, plain, hplain⟩
      · have hdebug := RuleStore.ofTable_debug htable raised (Array.mem_toList_iff.1 hput)
        rw [hdebug] at hlevel
        cases hlevel
    · rw [List.mem_singleton.1 hdone] at hlevel
      cases hlevel
  · rintro ⟨hstar, ⟨rule, hrow⟩, plain, hplain⟩
    obtain ⟨path, wildcard⟩ := p
    cases hstar
    have hpath : path ∈ Rules.doubledPaths (Rules.validPatterns config.rules) :=
      Rules.mem_doubledPaths.2
        ⟨Rules.mem_validPatterns.2 ⟨plain, hplain⟩, Rules.mem_validPatterns.2 ⟨rule, hrow⟩⟩
    refine ⟨session.tag (Rules.replacement path), List.mem_map_of_mem ?_, ?_, ?_⟩
    · apply List.mem_append_left
      apply List.mem_append_left
      exact List.mem_map_of_mem hpath
    · exact session.tag_level _
    · rw [Log.Session.tag_context _ _ (by decide), Rules.replacement_dropped]

-- =============================================================== lookups

/-- A configured rule is found under the name of its own path, or told to
be dropped, exactly if it is the rule of the last row for its pattern, or
the pattern is starred and its path is configured for its name alone as
well. -/
theorem loadRules_kept_or_warned_iff (hload : config.loadRules session = (.ok store, later))
    {key rule : String} (hrow : (key, rule) ∈ config.rules) {p : Pattern}
    (hparse : Pattern.parse key = .ok p) (hroot : p.segments ≠ []) :
    (store.get (⟨p.segments, false⟩ : Pattern).display = .ok (some rule)
        ∨ ∃ event ∈ later.events.toList.drop session.events.size,
            event.level = .warning ∧ event.context.get? "dropped" = some p.display)
      ↔ lastListed config.rules p = some rule
        ∨ p.wildcard = true ∧ ∃ plain, Lists config.rules ⟨p.segments, false⟩ plain := by
  have hlisted : Lists config.rules p rule := ⟨key, hrow, hparse⟩
  have hp := Pattern.wellFormed_of_parse hparse
  rw [warned_iff hload hp]
  obtain ⟨events, htable, -⟩ := recorded_of_loadRules hload
  obtain ⟨rules, hrules, hrealizes⟩ := RuleStore.rows_of_ofTable htable
  rw [lastListed_eq hrules]
  have hget : store.get (⟨p.segments, false⟩ : Pattern).display
      = .ok ((View.ofRows rules).answer p.segments) := by
    rw [hrealizes.toWithin.get_eq_iff.2 hrealizes.covers, View.get,
      Pattern.name_display_plain hp hroot]
    rfl
  rw [hget]
  by_cases hreplaced : p.wildcard = true ∧ ∃ plain, Lists config.rules ⟨p.segments, false⟩ plain
  · constructor
    · exact fun _ => .inr hreplaced
    · exact fun _ => .inr ⟨hreplaced.1, ⟨rule, hlisted⟩, hreplaced.2⟩
  · have hmem : (p, rule) ∈ rules := (RuleStore.mem_parseTable hrules).2 hlisted
    have hfree : p.wildcard = true → ∀ plain, (⟨p.segments, false⟩, plain) ∉ rules := by
      intro hstar plain hplain
      exact hreplaced ⟨hstar, plain, (RuleStore.mem_parseTable hrules).1 hplain⟩
    cases hlast : lastRule rules p with
    | none => exact absurd hmem (lastRule_eq_none_iff.1 hlast rule)
    | some held =>
        rw [View.answer_of_some (View.ofRows_last hfree hlast), Except.ok.injEq]
        apply or_congr_right
        constructor
        · rintro ⟨hstar, -, hplain⟩
          exact absurd ⟨hstar, hplain⟩ hreplaced
        · intro h
          exact absurd h hreplaced

/-- A configuration of one pattern in both spellings. -/
def respelled : Config := { Config.default (fun _ => none) with rules := RuleStore.spelledTwice }

theorem loadRules_kept_or_warned_respelled :
    ∃ store later, respelled.loadRules {} = (.ok store, later)
      ∧ ("a.b", "on") ∈ respelled.rules
      ∧ Pattern.parse "a.b" = .ok ⟨["a", "b"], false⟩ ∧ ["a", "b"] ≠ []
      ∧ ¬ (store.get (⟨["a", "b"], false⟩ : Pattern).display = .ok (some "on")
          ∨ ∃ event ∈ later.events.toList, event.level = .warning
            ∧ event.context.get? "dropped" = some (⟨["a", "b"], false⟩ : Pattern).display) := by
  have hlast : lastListed respelled.rules ⟨["a", "b"], false⟩ = some "off" := by cbv
  obtain ⟨rules, hrules⟩ := RuleStore.parseTable_of_valid RuleStore.spelledTwice_valid
  obtain ⟨store, logged, hload, -⟩ := RuleStore.ofTable_realizes hrules
  have hload : RuleStore.ofTable respelled.rules = .ok (store, logged) := hload
  have hdone : ∃ later, respelled.loadRules {} = (.ok store, later) := by
    rw [loadRules, hload]
    exact ⟨_, rfl⟩
  obtain ⟨later, hdone⟩ := hdone
  have hrow : ("a.b", "on") ∈ respelled.rules := List.mem_cons_self
  have hparse : Pattern.parse "a.b" = .ok ⟨["a", "b"], false⟩ := by rfl
  have hroot : ["a", "b"] ≠ [] := List.cons_ne_nil _ _
  refine ⟨store, later, hdone, hrow, hparse, hroot, ?_⟩
  intro hkept
  rcases (loadRules_kept_or_warned_iff hdone hrow hparse hroot).1 hkept with h | h
  · rw [hlast] at h
    exact absurd h (by decide)
  · cases h.1

/-- The row of the first spelling is lost, and nothing is warned of. -/
theorem earlier_spelling_lost :
    ("a.b", "on") ∈ respelled.rules
      ∧ (respelled.loadRules {}).1.bind (·.get "a.b") = .ok (some "off")
      ∧ (respelled.loadRules {}).2.events.toList.map (·.level) = [.debug, .debug, .info] := by
  refine ⟨List.mem_cons_self, ?_, ?_⟩ <;> cbv

end Config

end LayeredLexer
