/-
Stored rules against the rules that their paths inherit. A store is
`Pruned` if no entry repeats the rule of the nearest starred entry above
it. Putting a rule compares that one rule with what its path inherits and
does not keep a repetition; this file says how far that goes.

# What a call may bare

Only a plain pattern can leave a repetition behind. When it takes the
place of a starred rule, the paths below inherit from further up, and a
rule down there that was kept because it differed may now be what its
path inherits:

  a.* on      a.b.* off      a.b.c on      a.b

`Bares` names the situation in terms of the entries before the call. It
does not mention the rule that is put: stored or dropped, a rule for one
name alone passes nothing on. A starred pattern bares nothing, since it
takes all that is below it away.

# From one call to a run

`pruned_insert_iff` is the step: of a pruned store a call makes a pruned
one exactly if it bares nothing. A run therefore keeps to pruned stores
throughout exactly if none of its calls bares a rule.
-/
import LayeredLexer.Proofs.Rule.Dropping
import LayeredLexer.Proofs.Rule.Entries

namespace LayeredLexer

variable {ρ : Type}

-- ============================================================ vocabulary

/-- Among the starred entries strictly above a path, the one on the
longest path, with its rule. -/
structure NearestStarred (entries : List (String × ρ)) (path source : List String) (rule : ρ) :
    Prop where
  above : source <+: path
  strict : source ≠ path
  starred : (starredKey source, rule) ∈ entries
  nearest : ∀ source' rule', source' <+: path → source' ≠ path →
    (starredKey source', rule') ∈ entries → source'.length ≤ source.length

/-- No entry repeats the rule of the nearest starred entry above it. -/
def Pruned (entries : List (String × ρ)) : Prop :=
  ∀ key p rule, (key, rule) ∈ entries → Pattern.parse key = .ok p →
    ∀ source rule', NearestStarred entries p.segments source rule' → rule ≠ rule'

/-- A plain pattern on the path of a starred entry bares an entry below:
what its own path inherits is the rule of that entry, which only the
starred one keeps apart from it. -/
def Bares (entries : List (String × ρ)) (p : Pattern) : Prop :=
  p.wildcard = false ∧ ∃ source rule, NearestStarred entries p.segments source rule
    ∧ ∃ key below, (key, rule) ∈ entries ∧ Pattern.parse key = .ok below
      ∧ ∃ rule', NearestStarred entries below.segments p.segments rule'

-- ========================================================= above a path

section Above

variable {α : Type}

/-- Below a path, what is strictly below it comes first. -/
theorem above_append (values : List String → Option α) (path rest : List String) :
    above values (path ++ rest)
      = (above (fun q => values (path ++ q)) rest).or (above values path) := by
  induction path generalizing values with
  | nil => rw [List.nil_append, above, Option.or_none]; rfl
  | cons s path ih => rw [List.cons_append, above, ih, Option.or_assoc, above]; rfl

/-- The strict prefixes of a path are the prefixes of all but its last
segment. -/
theorem strict_prefix_snoc {q path : List String} {s : String} :
    (q <+: path ++ [s] ∧ q ≠ path ++ [s]) ↔ q <+: path := by
  rw [List.prefix_concat_iff]
  constructor
  · rintro ⟨rfl | hq, hne⟩
    · exact absurd rfl hne
    · exact hq
  · intro hq
    refine ⟨.inr hq, fun heq => ?_⟩
    have hlength := hq.length_le
    rw [heq, List.length_append, List.length_singleton] at hlength
    omega

theorem above_eq_some_iff {values : List String → Option α} {path : List String} {a : α} :
    above values path = some a
      ↔ ∃ q, (q <+: path ∧ q ≠ path) ∧ values q = some a
          ∧ ∀ q', (q' <+: path ∧ q' ≠ path) → values q' ≠ none → q' <+: q := by
  rcases List.eq_nil_or_concat' path with rfl | ⟨path, s, rfl⟩
  · constructor
    · exact fun h => nomatch h
    · rintro ⟨q, ⟨hq, hne⟩, -⟩
      exact absurd (List.prefix_nil.1 hq) hne
  · simp only [strict_prefix_snoc]
    rw [above_snoc, ← findSome?_inits, findSome?_inits_eq_some_iff]

theorem above_eq_none_iff {values : List String → Option α} {path : List String} :
    above values path = none ↔ ∀ q, (q <+: path ∧ q ≠ path) → values q = none := by
  rcases List.eq_nil_or_concat' path with rfl | ⟨path, s, rfl⟩
  · constructor
    · rintro - q ⟨hq, hne⟩
      exact absurd (List.prefix_nil.1 hq) hne
    · exact fun _ => rfl
  · simp only [strict_prefix_snoc]
    rw [above_snoc, ← findSome?_inits, findSome?_inits_eq_none_iff]

end Above

-- ================================================================ sources

namespace View

/-- The path that a path inherits its rule from. -/
structure Source (view : View ρ) (path source : List String) (rule : ρ) : Prop where
  above : source <+: path ∧ source ≠ path
  passed : view.passed source = some rule
  nearest : ∀ q, (q <+: path ∧ q ≠ path) → view.passed q ≠ none → q <+: source

variable {view : View ρ} {path source : List String} {rule : ρ}

theorem inherited_eq_some_iff :
    view.inherited path = some rule ↔ ∃ source, view.Source path source rule := by
  rw [inherited, above_eq_some_iff]
  constructor
  · rintro ⟨q, habove, hpassed, hnearest⟩
    exact ⟨q, habove, hpassed, hnearest⟩
  · rintro ⟨q, h⟩
    exact ⟨q, h.above, h.passed, h.nearest⟩

/-- What a path below another inherits: from in between, or else from the
other one, or else what that one inherits. -/
theorem inherited_below (view : View ρ) (path : List String) (s : String) (rest : List String) :
    view.inherited (path ++ s :: rest)
      = (above (fun q => view.passed (path ++ s :: q)) rest).or
          ((view.passed path).or (view.inherited path)) := by
  rw [inherited, above_append, above, List.append_nil, Option.or_assoc, inherited]

/-- A path is the source for one below it exactly if it passes a rule on
and nothing in between does. -/
theorem source_below_iff {s : String} {rest : List String} :
    view.Source (path ++ s :: rest) path rule
      ↔ above (fun q => view.passed (path ++ s :: q)) rest = none
        ∧ view.passed path = some rule := by
  constructor
  · intro h
    refine ⟨above_eq_none_iff.2 fun q hq => ?_, h.passed⟩
    by_contra hsome
    have hbetween : path ++ s :: q <+: path := by
      refine h.nearest _ ⟨?_, fun heq => ?_⟩ hsome
      · exact (List.prefix_append_right_inj path).2 (List.cons_prefix_cons.2 ⟨rfl, hq.1⟩)
      · exact hq.2 (List.cons.inj (List.append_cancel_left heq)).2
    have hlength := hbetween.length_le
    rw [List.length_append, List.length_cons] at hlength
    omega
  · rintro ⟨hbetween, hpassed⟩
    refine ⟨⟨List.prefix_append _ _, by simp⟩, hpassed, ?_⟩
    rintro q ⟨hq, hne⟩ hsome
    rcases List.prefix_or_prefix_of_prefix hq (List.prefix_append path _) with hshort | hlong
    · exact hshort
    · -- beyond `path` there is nothing that passes a rule on
      obtain ⟨tail, rfl⟩ := hlong
      cases tail with
      | nil => rw [List.append_nil]
      | cons t tail =>
          obtain ⟨rfl, htail⟩ := List.cons_prefix_cons.1 ((List.prefix_append_right_inj path).1 hq)
          refine absurd (above_eq_none_iff.1 hbetween tail ⟨htail, ?_⟩) hsome
          rintro rfl
          exact hne rfl

/-- If a path below inherits a rule only once `path` passes nothing on,
then `path` was its source. -/
theorem source_of_lost {s : String} {rest : List String}
    (hafter : (above (fun q => view.passed (path ++ s :: q)) rest).or (view.inherited path)
      = some rule)
    (hbefore : view.inherited (path ++ s :: rest) ≠ some rule) :
    (∃ rule', view.Source (path ++ s :: rest) path rule') ∧ view.inherited path = some rule := by
  rw [inherited_below] at hbefore
  cases hbetween : above (fun q => view.passed (path ++ s :: q)) rest with
  | some rule' =>
      rw [hbetween] at hafter hbefore
      exact absurd hafter hbefore
  | none =>
      rw [hbetween, Option.none_or] at hafter hbefore
      refine ⟨?_, hafter⟩
      cases hpassed : view.passed path with
      | none =>
          rw [hpassed, Option.none_or] at hbefore
          exact absurd hafter hbefore
      | some rule' => exact ⟨rule', source_below_iff.2 ⟨hbetween, hpassed⟩⟩

end View

-- =============================================== entries against the view

namespace RuleStore

namespace WellFormed

variable {store : RuleStore ρ} (h : store.WellFormed)

include h

theorem nearestStarred_iff {p : Pattern} (hp : p.Spelled) {source : List String} {rule : ρ} :
    NearestStarred store.entries p.segments source rule
      ↔ View.Source store.slot? p.segments source rule := by
  constructor
  · intro hnearest
    refine ⟨⟨hnearest.above, hnearest.strict⟩, ?_, ?_⟩
    · exact (h.mem_entries_starred hp hnearest.above).1 hnearest.starred
    · rintro q ⟨hq, hne⟩ hsome
      obtain ⟨rule', hrule'⟩ := Option.ne_none_iff_exists'.1 hsome
      have hlength := hnearest.nearest q rule' hq hne ((h.mem_entries_starred hp hq).2 hrule')
      exact List.prefix_of_prefix_length_le hq hnearest.above hlength
  · intro hsource
    obtain ⟨habove, hstrict⟩ := hsource.above
    refine ⟨habove, hstrict, (h.mem_entries_starred hp habove).2 hsource.passed, ?_⟩
    intro q rule' hq hne hstarred
    have hrule' := (h.mem_entries_starred hp hq).1 hstarred
    refine (hsource.nearest q ⟨hq, hne⟩ ?_).length_le
    rw [hrule']
    exact Option.some_ne_none rule'

/-- A store is pruned if it holds nothing that is inherited anyway. -/
theorem pruned_iff :
    Pruned store.entries
      ↔ ∀ path slot, store.slot? path = some slot →
          View.inherited store.slot? path ≠ some slot.rule := by
  constructor
  · intro hpruned path slot hslot hinherits
    have hpattern := h.patterns hslot
    obtain ⟨source, hsource⟩ := View.inherited_eq_some_iff.1 hinherits
    refine hpruned _ _ _ (h.display_mem_entries hslot) (Pattern.parse_display hpattern) source
      slot.rule ?_ rfl
    exact (h.nearestStarred_iff hpattern.toSpelled).2 hsource
  · intro hview key p rule hkey hp source rule' hnearest heq
    obtain ⟨hpattern, hslot⟩ := h.slot?_of_mem_entries hkey hp
    refine hview p.segments _ hslot ?_
    rw [heq]
    exact View.inherited_eq_some_iff.2 ⟨source, (h.nearestStarred_iff hpattern.toSpelled).1 hnearest⟩

theorem bares_iff {p : Pattern} (hp : p.Spelled) :
    Bares store.entries p
      ↔ p.wildcard = false ∧ ∃ path slot, store.slot? path = some slot
          ∧ (∃ rule, View.Source store.slot? path p.segments rule)
          ∧ View.inherited store.slot? p.segments = some slot.rule := by
  constructor
  · rintro ⟨hplain, source, rule, hnearest, key, below, hkey, hbelow, rule', hstarred⟩
    obtain ⟨hpattern, hslot⟩ := h.slot?_of_mem_entries hkey hbelow
    refine ⟨hplain, below.segments, _, hslot, ⟨rule', ?_⟩, ?_⟩
    · exact (h.nearestStarred_iff hpattern.toSpelled).1 hstarred
    · exact View.inherited_eq_some_iff.2 ⟨source, (h.nearestStarred_iff hp).1 hnearest⟩
  · rintro ⟨hplain, path, slot, hslot, ⟨rule', hsource⟩, hinherits⟩
    have hpattern := h.patterns hslot
    obtain ⟨source, hnearest⟩ := View.inherited_eq_some_iff.1 hinherits
    refine ⟨hplain, source, slot.rule, (h.nearestStarred_iff hp).2 hnearest, _, slot.pattern path,
      h.display_mem_entries hslot, Pattern.parse_display hpattern, rule', ?_⟩
    exact (h.nearestStarred_iff hpattern.toSpelled).2 hsource

end WellFormed

theorem pruned_empty : Pruned (empty : RuleStore ρ).entries := by
  rw [WellFormed.empty.pruned_iff]
  intro path slot hslot
  rw [slot?_empty] at hslot
  cases hslot

variable [DecidableEq ρ] {store : RuleStore ρ} {p : Pattern} {rule : ρ}

-- ============================================================== one call

/-- What a pattern's own path holds after a call is not inherited there. -/
theorem inherited_insert_self (h : store.Distinct) {slot : Slot ρ}
    (hslot : (store.insert p rule).slot? p.segments = some slot) :
    View.inherited (store.insert p rule).slot? p.segments ≠ some slot.rule := by
  rw [slot?_insert h, if_pos rfl] at hslot
  split at hslot
  · cases hslot
  next hnot =>
    cases hslot
    rw [← inherited?_none, inherited?_insert h fun _ => rfl]
    exact fun hsame => hnot (beq_iff_eq.2 hsame)

/-- After a plain pattern was put, its path passes nothing on. -/
theorem inherited_insert_below (h : store.Distinct) (hplain : p.wildcard = false) (s : String)
    (rest : List String) :
    View.inherited (store.insert p rule).slot? (p.segments ++ s :: rest)
      = (above (fun q => View.passed store.slot? (p.segments ++ s :: q)) rest).or
          (View.inherited store.slot? p.segments) := by
  have hbetween : ∀ q, View.passed (store.insert p rule).slot? (p.segments ++ s :: q)
      = View.passed store.slot? (p.segments ++ s :: q) := by
    intro q
    rw [View.passed, View.passed, slot?_insert_plain h hplain (by simp)]
  have hself : View.passed (store.insert p rule).slot? p.segments = none := by
    rw [View.passed, slot?_insert h, if_pos rfl, hplain]
    split <;> rfl
  have habove : View.inherited (store.insert p rule).slot? p.segments
      = View.inherited store.slot? p.segments := by
    rw [← inherited?_none, ← inherited?_none, inherited?_insert h fun _ => rfl]
  rw [View.inherited_below, hself, habove, Option.none_or]
  simp only [hbetween]

/-- Of a pruned store a call makes a pruned one exactly if it bares
nothing. -/
theorem WellFormed.pruned_insert_iff (h : store.WellFormed) (hp : p.WellFormed)
    (hpruned : Pruned store.entries) :
    Pruned (store.insert p rule).entries ↔ ¬ Bares store.entries p := by
  rw [h.pruned_iff] at hpruned
  rw [(h.insert rule hp).pruned_iff, h.bares_iff hp.toSpelled]
  constructor
  · rintro hafter ⟨hplain, path, slot, hslot, ⟨rule', hsource⟩, hinherits⟩
    obtain ⟨rest, rfl⟩ := hsource.above.1
    cases rest with
    | nil => exact hsource.above.2 (List.append_nil _).symm
    | cons s rest =>
        have hkept : (store.insert p rule).slot? (p.segments ++ s :: rest) = some slot := by
          rw [slot?_insert_plain h.distinct hplain (by simp), hslot]
        refine hafter _ slot hkept ?_
        rw [inherited_insert_below h.distinct hplain, (View.source_below_iff.1 hsource).1,
          Option.none_or, hinherits]
  · intro hnot path slot hslot
    by_cases hpath : path = p.segments
    · rw [hpath] at hslot ⊢
      exact inherited_insert_self h.distinct hslot
    have hkept := hslot
    rw [slot?_insert h.distinct, if_neg hpath] at hkept
    split at hkept
    · cases hkept
    next hleft =>
      by_cases hbelow : p.segments <+: path
      · -- a plain pattern above: the path may have lost its source
        have hplain : p.wildcard = false := by
          rw [← Bool.not_eq_true]
          exact fun hstar => hleft ⟨hstar, hbelow⟩
        obtain ⟨rest, rfl⟩ := hbelow
        cases rest with
        | nil => exact absurd (List.append_nil _) hpath
        | cons s rest =>
            intro hafter
            rw [inherited_insert_below h.distinct hplain] at hafter
            exact hnot ⟨hplain, _, slot, hkept, View.source_of_lost hafter (hpruned _ slot hkept)⟩
      · rw [← inherited?_none, inherited?_insert h.distinct fun hunder => absurd hunder hbelow,
          inherited?_none]
        exact hpruned path slot hkept

-- ================================================================ a run

theorem insertAll_wellFormed {calls : List (Pattern × ρ)}
    (hcalls : ∀ call ∈ calls, ∃ text, Pattern.parse text = .ok call.1) :
    (empty.insertAll calls).1.WellFormed := by
  refine insertAll_invariant WellFormed.insert WellFormed.empty fun call hcall => ?_
  obtain ⟨text, hparse⟩ := hcalls call hcall
  exact Pattern.wellFormed_of_parse hparse

/-- A run of calls keeps to pruned stores throughout exactly if none of
them bares a rule of the store that it is made on. -/
theorem pruned_throughout_iff {calls : List (Pattern × ρ)}
    (hcalls : ∀ call ∈ calls, ∃ text, Pattern.parse text = .ok call.1) :
    (∀ made, made <+: calls → Pruned (empty.insertAll made).1.entries)
      ↔ ∀ made p rule, made ++ [(p, rule)] <+: calls →
          ¬ Bares (empty.insertAll made).1.entries p := by
  have hstore : ∀ made, made <+: calls → (empty.insertAll made).1.WellFormed := by
    intro made hmade
    exact insertAll_wellFormed fun call hcall => hcalls call (hmade.subset hcall)
  have hnext : ∀ made p rule, made ++ [(p, rule)] <+: calls → made <+: calls ∧ p.WellFormed := by
    intro made p rule hmade
    refine ⟨(List.prefix_append _ _).trans hmade, ?_⟩
    obtain ⟨text, hparse⟩ := hcalls (p, rule) (hmade.subset (by simp))
    exact Pattern.wellFormed_of_parse hparse
  constructor
  · intro hpruned made p rule hmade
    obtain ⟨hbefore, hp⟩ := hnext made p rule hmade
    have hafter := hpruned _ hmade
    rw [insertAll_snoc] at hafter
    exact ((hstore made hbefore).pruned_insert_iff hp (hpruned made hbefore)).1 hafter
  · intro hnot made
    induction made using List.reverseRecOn with
    | nil => exact fun _ => pruned_empty
    | append_singleton made call ih =>
        obtain ⟨p, rule⟩ := call
        intro hmade
        obtain ⟨hbefore, hp⟩ := hnext made p rule hmade
        rw [insertAll_snoc]
        exact ((hstore made hbefore).pruned_insert_iff hp (ih hbefore)).2 (hnot made p rule hmade)

/-- On below `a`, off below `a.b`, on for `a.b.c`, and then a rule for
`a.b` alone, in whose place `a.b.*` kept `a.b.c` apart from `a.*`. -/
def baringCalls : List (Pattern × String) :=
  [(⟨["a"], true⟩, "on"), (⟨["a", "b"], true⟩, "off"), (⟨["a", "b", "c"], false⟩, "on"),
    (⟨["a", "b"], false⟩, "audit")]

theorem baringCalls_parse :
    ∀ call ∈ baringCalls, ∃ text, Pattern.parse text = .ok call.1 := by
  unfold baringCalls
  simp only [List.forall_mem_cons]
  exact ⟨⟨"a.*", rfl⟩, ⟨"a.b.*", rfl⟩, ⟨"a.b.c", rfl⟩, ⟨"a.b", rfl⟩, fun _ h => nomatch h⟩

theorem pruned_throughout_iff_baring :
    (∀ call ∈ baringCalls, ∃ text, Pattern.parse text = .ok call.1)
      ∧ Bares (empty.insertAll (baringCalls.take 3)).1.entries ⟨["a", "b"], false⟩
      ∧ ¬ ∀ made, made <+: baringCalls → Pruned (empty.insertAll made).1.entries := by
  have hbares : Bares (empty.insertAll (baringCalls.take 3)).1.entries ⟨["a", "b"], false⟩ := by
    have hstore : (empty.insertAll (baringCalls.take 3)).1.WellFormed :=
      insertAll_wellFormed fun call hcall => baringCalls_parse call (List.mem_of_mem_take hcall)
    have hspelled : (⟨["a", "b"], false⟩ : Pattern).Spelled :=
      (@Pattern.wellFormed_of_parse "a.b" _ rfl).toSpelled
    rw [hstore.bares_iff hspelled]
    refine ⟨rfl, ["a", "b", "c"], ⟨"on", true⟩, by rfl, ⟨"off", ?_⟩, by rfl⟩
    have hdirect : ["a", "b"] ++ ["c"] = ["a", "b", "c"] := rfl
    rw [← hdirect]
    exact View.source_below_iff.2 ⟨by rfl, by rfl⟩
  refine ⟨baringCalls_parse, hbares, fun hpruned => ?_⟩
  exact (pruned_throughout_iff baringCalls_parse).1 hpruned _ _ "audit" List.prefix_rfl hbares

/-- The last call leaves `a.b.c` with the rule of `a.*`. -/
theorem repetition_left :
    ∃ store : RuleStore String,
      (do let (store, _) ← (empty : RuleStore String).put "a.*" "on"
          let (store, _) ← store.put "a.b.*" "off"
          let (store, _) ← store.put "a.b.c" "on"
          let (store, _) ← store.put "a.b" "audit"
          pure store) = Except.ok (ε := PatternError) store
        ∧ store.entries = [("a.*", "on"), ("a.b", "audit"), ("a.b.c", "on")]
        ∧ ¬ Pruned store.entries := by
  have hentries : (empty.insertAll baringCalls).1.entries
      = [("a.*", "on"), ("a.b", "audit"), ("a.b.c", "on")] := by
    rw [entries, List.mergeSort_of_pairwise (by decide +kernel)]
    rfl
  refine ⟨(empty.insertAll baringCalls).1, by rfl, hentries, ?_⟩
  rw [(insertAll_wellFormed baringCalls_parse).pruned_iff]
  intro hpruned
  exact hpruned ["a", "b", "c"] ⟨"on", true⟩ (by rfl) (by rfl)

end RuleStore

end LayeredLexer
