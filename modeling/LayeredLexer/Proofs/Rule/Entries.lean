/-
The listing of a store against its view, and the lookup against the
listing. The tree is listed by recursion on all of it and looked up along
one path; here both are read off what is held on each path, so they
agree on every store that can be built.

# From the tree to the keys

`mem_rules` says that the listing has exactly what the view holds. Its
paths are different (`rules_pairwise`), so its patterns are, and so are
the texts of the patterns, which are the keys. Sorting then makes the
keys ascend, and a key may be looked for by the pattern that it shows.
-/
import LayeredLexer.Proofs.Rule.Lookup
import LayeredLexer.Proofs.Rule.Reachable
import Mathlib.Data.List.Sort

namespace LayeredLexer

variable {ρ : Type}

-- =============================================================== listing

namespace Branches

/-- What branches hold on a path below the node that they start from. -/
def slot? (b : Branches ρ) : View ρ
  | [] => .none
  | s :: path => (b.find? s).bind (·.slot? path)

/-- The first branch holds the paths that begin with its segment. -/
theorem slot?_branch_self (s : String) (slot : Option (Slot ρ)) (below rest : Branches ρ)
    (path : List String) :
    (branch s slot below rest).slot? (s :: path) = (⟨slot, below⟩ : RuleStore ρ).slot? path := by
  rw [slot?, find?, if_pos rfl, Option.bind_some]

theorem slot?_branch_of_ne {s t : String} (hne : s ≠ t) (slot : Option (Slot ρ))
    (below rest : Branches ρ) (path : List String) :
    (branch s slot below rest).slot? (t :: path) = rest.slot? (t :: path) := by
  rw [slot?, find?, if_neg hne, slot?]

/-- A path that is held starts at a segment of the top. -/
theorem exists_cons_of_slot? {b : Branches ρ} {path : List String} {slot : Slot ρ}
    (h : b.slot? path = some slot) : ∃ s tail, path = s :: tail ∧ s ∈ b.segments := by
  cases path with
  | nil => cases h
  | cons s tail =>
      obtain ⟨child, hfind, -⟩ := Option.bind_eq_some_iff.1 h
      exact ⟨s, tail, rfl, mem_segments_of_find? hfind⟩

/-- The listing of a slot. -/
theorem mem_slot_rules {slot : Option (Slot ρ)} {path : List String} {p : Pattern} {rule : ρ} :
    (p, rule) ∈ slot.toList.map (fun s => (s.pattern path, s.rule))
      ↔ p.segments = path ∧ slot = some ⟨rule, !p.wildcard⟩ := by
  obtain ⟨segments, wildcard⟩ := p
  cases slot with
  | none => simp
  | some slot =>
      obtain ⟨held, exact⟩ := slot
      simp only [Option.toList_some, List.map_cons, List.map_nil, List.mem_singleton,
        Slot.pattern, Prod.mk.injEq, Pattern.mk.injEq, Option.some.injEq, Slot.mk.injEq]
      constructor
      · intro hlisted
        obtain ⟨⟨rfl, rfl⟩, rfl⟩ := hlisted
        exact ⟨rfl, rfl, (Bool.not_not exact).symm⟩
      · intro hheld
        obtain ⟨rfl, rfl, rfl⟩ := hheld
        exact ⟨⟨rfl, (Bool.not_not wildcard).symm⟩, rfl⟩

/-- A node lists its own rule and what is below it. -/
theorem mem_node_rules {slot : Option (Slot ρ)} {below : Branches ρ} {path : List String}
    {p : Pattern} {rule : ρ}
    (hbelow : (p, rule) ∈ below.rules path
      ↔ ∃ q, p.segments = path ++ q ∧ below.slot? q = some ⟨rule, !p.wildcard⟩) :
    (p, rule) ∈ slot.toList.map (fun s => (s.pattern path, s.rule)) ++ below.rules path
      ↔ ∃ q, p.segments = path ++ q
          ∧ (⟨slot, below⟩ : RuleStore ρ).slot? q = some ⟨rule, !p.wildcard⟩ := by
  rw [List.mem_append, mem_slot_rules, hbelow]
  constructor
  · intro hlisted
    rcases hlisted with ⟨hp, hslot⟩ | ⟨q, hp, hheld⟩
    · exact ⟨[], by rw [hp, List.append_nil], hslot⟩
    · obtain ⟨s, tail, rfl, -⟩ := exists_cons_of_slot? hheld
      exact ⟨s :: tail, hp, by rw [RuleStore.slot?_cons]; exact hheld⟩
  · intro hview
    obtain ⟨q, hp, hheld⟩ := hview
    cases q with
    | nil => exact .inl ⟨by rw [hp, List.append_nil], hheld⟩
    | cons s tail =>
        rw [RuleStore.slot?_cons] at hheld
        exact .inr ⟨s :: tail, hp, hheld⟩

/-- Branches list exactly what they hold. -/
theorem mem_rules {b : Branches ρ} (hb : b.Distinct) {path : List String} {p : Pattern} {rule : ρ} :
    (p, rule) ∈ b.rules path
      ↔ ∃ q, p.segments = path ++ q ∧ b.slot? q = some ⟨rule, !p.wildcard⟩ := by
  induction b generalizing path with
  | none =>
      constructor
      · exact fun h => nomatch h
      · intro hview
        obtain ⟨q, -, hheld⟩ := hview
        obtain ⟨s, -, -, hmem⟩ := exists_cons_of_slot? hheld
        cases hmem
  | branch s slot below rest ihBelow ihRest =>
      obtain ⟨hnew, hbelow, hrest⟩ := hb
      rw [rules, List.mem_append, mem_node_rules (ihBelow hbelow), ihRest hrest]
      constructor
      · intro hlisted
        rcases hlisted with ⟨q, hp, hheld⟩ | ⟨q, hp, hheld⟩
        · refine ⟨s :: q, by rw [hp, List.append_assoc]; rfl, ?_⟩
          rw [slot?_branch_self, hheld]
        · obtain ⟨t, tail, rfl, hmem⟩ := exists_cons_of_slot? hheld
          have hne : s ≠ t := fun heq => hnew (heq ▸ hmem)
          refine ⟨t :: tail, hp, ?_⟩
          rw [slot?_branch_of_ne hne, hheld]
      · intro hview
        obtain ⟨q, hp, hheld⟩ := hview
        cases q with
        | nil => cases hheld
        | cons t tail =>
            by_cases hne : s = t
            · subst hne
              rw [slot?_branch_self] at hheld
              refine .inl ⟨tail, ?_, hheld⟩
              rw [hp, List.append_assoc]
              rfl
            · rw [slot?_branch_of_ne hne] at hheld
              exact .inr ⟨t :: tail, hp, hheld⟩

/-- A node does not list its own path again below it. -/
theorem node_rules_pairwise {slot : Option (Slot ρ)} {below : Branches ρ} (hb : below.Distinct)
    {path : List String}
    (hbelow : (below.rules path).Pairwise fun x y => x.1.segments ≠ y.1.segments) :
    (slot.toList.map (fun s => (s.pattern path, s.rule)) ++ below.rules path).Pairwise
      fun x y => x.1.segments ≠ y.1.segments := by
  rw [List.pairwise_append]
  refine ⟨?_, hbelow, ?_⟩
  · cases slot with
    | none => exact List.Pairwise.nil
    | some slot => exact List.pairwise_singleton _ _
  · rintro ⟨p, held⟩ hp ⟨q, rule⟩ hq heq
    obtain ⟨tail, hsegments, hheld⟩ := (mem_rules hb).1 hq
    obtain ⟨s, tail, rfl, -⟩ := exists_cons_of_slot? hheld
    have hown : p.segments = path := (mem_slot_rules.1 hp).1
    rw [hown, hsegments] at heq
    exact List.cons_ne_nil s tail (List.self_eq_append_right.1 heq)

/-- No path is listed twice. -/
theorem rules_pairwise {b : Branches ρ} (hb : b.Distinct) (path : List String) :
    (b.rules path).Pairwise fun x y => x.1.segments ≠ y.1.segments := by
  induction b generalizing path with
  | none => exact List.Pairwise.nil
  | branch s slot below rest ihBelow ihRest =>
      obtain ⟨hnew, hbelow, hrest⟩ := hb
      rw [rules, List.pairwise_append]
      refine ⟨node_rules_pairwise hbelow (ihBelow hbelow _), ihRest hrest _, ?_⟩
      rintro ⟨p, rule⟩ hp ⟨q, rule'⟩ hq heq
      obtain ⟨here, hhere, -⟩ := (mem_node_rules (mem_rules hbelow)).1 hp
      obtain ⟨tail, hthere, hheld⟩ := (mem_rules hrest).1 hq
      obtain ⟨t, tail, rfl, hmem⟩ := exists_cons_of_slot? hheld
      rw [hhere, hthere, List.append_assoc, List.append_cancel_left_eq] at heq
      have hst : s = t := (List.cons.inj heq).1
      exact hnew (hst ▸ hmem)

theorem size_eq_length (b : Branches ρ) (path : List String) :
    b.size = (b.rules path).length := by
  induction b generalizing path with
  | none => rfl
  | branch s slot below rest ihBelow ihRest =>
      rw [size, rules, ihBelow (path ++ [s]), ihRest path]
      cases slot with
      | none => simp
      | some slot => simp [Nat.add_comm, Nat.add_left_comm]

end Branches

-- =============================================================== entries

namespace RuleStore

/-- A store lists exactly what it holds. -/
theorem mem_rules {store : RuleStore ρ} (h : store.Distinct) {p : Pattern} {rule : ρ} :
    (p, rule) ∈ store.rules ↔ store.slot? p.segments = some ⟨rule, !p.wildcard⟩ := by
  rw [rules, Branches.mem_node_rules (Branches.mem_rules h)]
  constructor
  · intro hview
    obtain ⟨q, hq, hheld⟩ := hview
    rw [hq]
    exact hheld
  · exact fun hheld => ⟨p.segments, rfl, hheld⟩

theorem size_eq_length (store : RuleStore ρ) : store.size = store.entries.length := by
  rw [entries, List.length_mergeSort, List.length_map, rules, List.length_append, size,
    Branches.size_eq_length store.below []]
  cases store.slot <;> rfl

/-- The patterns of a store and their keys. -/
theorem mem_entries {store : RuleStore ρ} {key : String} {rule : ρ} :
    (key, rule) ∈ store.entries ↔ ∃ p, (p, rule) ∈ store.rules ∧ p.display = key := by
  rw [entries, List.mem_mergeSort, List.mem_map]
  constructor
  · intro hlisted
    obtain ⟨⟨p, held⟩, hp, heq⟩ := hlisted
    cases heq
    exact ⟨p, hp, rfl⟩
  · intro hrule
    obtain ⟨p, hp, rfl⟩ := hrule
    exact ⟨(p, rule), hp, rfl⟩

namespace WellFormed

variable {store : RuleStore ρ} (h : store.WellFormed)

include h

theorem rule_wellFormed {p : Pattern} {rule : ρ} (hp : (p, rule) ∈ store.rules) : p.WellFormed := by
  have hpattern := h.patterns ((RuleStore.mem_rules h.distinct).1 hp)
  rwa [Slot.pattern, Bool.not_not] at hpattern

/-- A pattern is listed under the text that shows it. -/
theorem mem_entries_display {p : Pattern} (hp : p.Spelled) {rule : ρ} :
    (p.display, rule) ∈ store.entries ↔ store.slot? p.segments = some ⟨rule, !p.wildcard⟩ := by
  rw [mem_entries, ← RuleStore.mem_rules h.distinct]
  constructor
  · intro hlisted
    obtain ⟨q, hq, heq⟩ := hlisted
    rwa [← Pattern.display_injective (h.rule_wellFormed hq).toSpelled hp heq]
  · exact fun hheld => ⟨p, hheld, rfl⟩

/-- Every key is the text of the pattern that is read from it. -/
theorem parse_key {key : String} {rule : ρ} (hkey : (key, rule) ∈ store.entries) :
    ∃ p, Pattern.parse key = .ok p ∧ p.display = key := by
  obtain ⟨p, hp, rfl⟩ := mem_entries.1 hkey
  exact ⟨p, Pattern.parse_display (h.rule_wellFormed hp), rfl⟩

/-- Whoever is read from a key holds the rule of the key. -/
theorem slot?_of_mem_entries {key : String} {p : Pattern} {rule : ρ}
    (hkey : (key, rule) ∈ store.entries) (hp : Pattern.parse key = .ok p) :
    p.WellFormed ∧ store.slot? p.segments = some ⟨rule, !p.wildcard⟩ := by
  obtain ⟨q, hq, hshown⟩ := RuleStore.mem_entries.1 hkey
  rw [← hshown, Pattern.parse_display (h.rule_wellFormed hq)] at hp
  cases hp
  exact ⟨h.rule_wellFormed hq, (RuleStore.mem_rules h.distinct).1 hq⟩

/-- And what a path holds is listed under its pattern. -/
theorem display_mem_entries {path : List String} {slot : Slot ρ}
    (hslot : store.slot? path = some slot) :
    ((slot.pattern path).display, slot.rule) ∈ store.entries := by
  rw [h.mem_entries_display (h.patterns hslot).toSpelled]
  show store.slot? path = some ⟨slot.rule, !!slot.exact⟩
  rw [hslot, Bool.not_not]

/-- No two keys are on one path. -/
theorem entries_paths : store.entries.Pairwise fun a b =>
    ∀ p q, Pattern.parse a.1 = .ok p → Pattern.parse b.1 = .ok q → p.segments ≠ q.segments := by
  have hrules : store.rules.Pairwise fun x y => x.1.segments ≠ y.1.segments :=
    Branches.node_rules_pairwise h.distinct (Branches.rules_pairwise h.distinct [])
  unfold entries
  rw [(List.mergeSort_perm _ _).pairwise_iff fun hab p q hp hq heq => hab q p hq hp heq.symm,
    List.pairwise_map]
  refine hrules.imp_of_mem fun {x y} hx hy hne p q hp hq => ?_
  rw [Pattern.parse_display (h.rule_wellFormed hx)] at hp
  rw [Pattern.parse_display (h.rule_wellFormed hy)] at hq
  cases hp
  cases hq
  exact hne

/-- The keys ascend. -/
theorem entries_ascend : store.entries.Pairwise fun a b => a.1 < b.1 := by
  have hle : ∀ a b : String, (!(b < a) : Bool) = true ↔ a ≤ b := by
    intro a b
    rw [Bool.not_eq_true', decide_eq_false_iff_not, String.not_lt]
  have hsorted : store.entries.Pairwise fun a b => !(b.1 < a.1) := by
    refine List.pairwise_mergeSort (fun a b c hab hbc => ?_) (fun a b => ?_) _
    · rw [hle] at hab hbc ⊢
      exact String.le_trans hab hbc
    · rw [Bool.or_eq_true, hle, hle]
      exact String.le_total a.1 b.1
  refine (hsorted.and h.entries_paths).imp_of_mem fun {a b} ha hb hab => ?_
  obtain ⟨hsort, hpaths⟩ := hab
  obtain ⟨p, hp, -⟩ := h.parse_key ha
  refine String.not_le.1 fun hge => ?_
  have heq : a.1 = b.1 := String.le_antisymm ((hle _ _).1 hsort) hge
  exact hpaths p p hp (heq ▸ hp) rfl

end WellFormed

/-- Stores that hold the same have the same listing. -/
theorem entries_congr {store other : RuleStore ρ} (hstore : store.WellFormed)
    (hother : other.WellFormed) (h : store.slot? = other.slot?) : store.entries = other.entries := by
  have : Std.Antisymm fun a b : String × ρ => a.1 < b.1 :=
    ⟨fun a b hab hba => absurd hba (String.lt_asymm hab)⟩
  have : Std.Irrefl fun a b : String × ρ => a.1 < b.1 := ⟨fun a => String.lt_irrefl a.1⟩
  apply List.Pairwise.eq_of_mem_iff hstore.entries_ascend hother.entries_ascend
  intro e
  obtain ⟨key, rule⟩ := e
  rw [mem_entries, mem_entries]
  simp only [mem_rules hstore.distinct, mem_rules hother.distinct, h]

/-- And stores with the same listing hold the same. -/
theorem slot?_congr {store other : RuleStore ρ} (hstore : store.WellFormed)
    (hother : other.WellFormed) (h : store.entries = other.entries) :
    store.slot? = other.slot? := by
  have hheld : ∀ {s t : RuleStore ρ}, s.WellFormed → t.WellFormed → s.entries = t.entries →
      ∀ {path slot}, s.slot? path = some slot → t.slot? path = some slot := by
    intro s t hs ht hsame path slot hslot
    have hlisted := hs.display_mem_entries hslot
    rw [hsame, ht.mem_entries_display (hs.patterns hslot).toSpelled] at hlisted
    rw [Slot.pattern, Bool.not_not] at hlisted
    exact hlisted
  funext path
  apply Option.ext
  intro slot
  exact ⟨hheld hstore hother h, hheld hother hstore h.symm⟩

end RuleStore

-- ========================================================= most specific

/-- The key of the starred pattern on a path. -/
def starredKey (path : List String) : String := (⟨path, true⟩ : Pattern).display

/-- What the listed entries say about a name: its own rule if its exact
key is listed, else the rule of the longest path at or above it whose
starred key is, and else nothing. -/
inductive MostSpecific (entries : List (String × ρ)) (name : Pattern) : Option ρ → Prop
  | exact {rule : ρ} (own : (name.display, rule) ∈ entries) : MostSpecific entries name (some rule)
  | longest {path : List String} {rule : ρ}
      (notOwn : ∀ rule, (name.display, rule) ∉ entries)
      (covers : path <+: name.segments)
      (starred : (starredKey path, rule) ∈ entries)
      (longest : ∀ path' rule', path' <+: name.segments →
        (starredKey path', rule') ∈ entries → path'.length ≤ path.length) :
      MostSpecific entries name (some rule)
  | none
      (notOwn : ∀ rule, (name.display, rule) ∉ entries)
      (uncovered : ∀ path rule, path <+: name.segments → (starredKey path, rule) ∉ entries) :
      MostSpecific entries name none

namespace RuleStore

namespace WellFormed

variable {store : RuleStore ρ} (h : store.WellFormed) {name : Pattern} (hname : name.Spelled)

include h hname

/-- The exact key of a name is listed with the rule for the name alone. -/
theorem mem_entries_own (hplain : name.wildcard = false) {rule : ρ} :
    (name.display, rule) ∈ store.entries ↔ View.own store.slot? name.segments = some rule := by
  rw [h.mem_entries_display hname, hplain, View.own_eq_some_iff]
  rfl

theorem own_eq_none_iff (hplain : name.wildcard = false) :
    View.own store.slot? name.segments = none ↔ ∀ rule, (name.display, rule) ∉ store.entries := by
  simp only [h.mem_entries_own hname hplain, Option.eq_none_iff_forall_ne_some, ne_eq]

/-- A starred key at or above a name is listed with the rule that its
path passes on. -/
theorem mem_entries_starred {path : List String} (hpath : path <+: name.segments) {rule : ρ} :
    (starredKey path, rule) ∈ store.entries ↔ View.passed store.slot? path = some rule := by
  have hspelled : (⟨path, true⟩ : Pattern).Spelled :=
    ⟨List.append_ne_nil_of_right_ne_nil _ (List.cons_ne_nil _ _),
      fun s hs => hname.identifiers s (hpath.subset hs)⟩
  rw [starredKey, h.mem_entries_display hspelled, View.passed_eq_some_iff]
  rfl

/-- What the listing says about a name is what the view answers. -/
theorem answer_of_mostSpecific (hplain : name.wildcard = false) {answer : Option ρ}
    (hmost : MostSpecific store.entries name answer) :
    answer = View.answer store.slot? name.segments := by
  apply View.says_iff.1
  cases hmost with
  | exact own => exact .own ((h.mem_entries_own hname hplain).1 own)
  | longest notOwn covers starred longest =>
      refine .longest ((h.own_eq_none_iff hname hplain).2 notOwn) covers
        ((h.mem_entries_starred hname covers).1 starred) fun path' rule' covers' hrule' => ?_
      exact longest path' rule' covers' ((h.mem_entries_starred hname covers').2 hrule')
  | none notOwn uncovered =>
      refine .none ((h.own_eq_none_iff hname hplain).2 notOwn) fun path rule covers hrule => ?_
      exact uncovered path rule covers ((h.mem_entries_starred hname covers).2 hrule)

/-- And it says so. -/
theorem mostSpecific_answer (hplain : name.wildcard = false) :
    MostSpecific store.entries name (View.answer store.slot? name.segments) := by
  have hsays := @View.says_iff _ store.slot? name.segments _ |>.2 rfl
  generalize View.answer store.slot? name.segments = answer at hsays ⊢
  cases hsays with
  | own own => exact .exact ((h.mem_entries_own hname hplain).2 own)
  | longest notOwn covers passed longest =>
      refine .longest ((h.own_eq_none_iff hname hplain).1 notOwn) covers
        ((h.mem_entries_starred hname covers).2 passed) fun path' rule' covers' starred' => ?_
      exact longest path' rule' covers' ((h.mem_entries_starred hname covers').1 starred')
  | none notOwn uncovered =>
      refine .none ((h.own_eq_none_iff hname hplain).1 notOwn) fun path rule covers starred => ?_
      exact uncovered path rule covers ((h.mem_entries_starred hname covers).1 starred)

end WellFormed

variable [DecidableEq ρ]

/-- In every store that calls can build, the keys of the entries ascend,
are read back as the patterns they show, and are on different paths;
there are as many entries as rules; and a valid name gets the rule that
the entries say. -/
theorem Reachable.lookup_most_specific {store : RuleStore ρ} (h : store.Reachable) :
    (store.entries.Pairwise fun a b => a.1 < b.1)
      ∧ (∀ key rule, (key, rule) ∈ store.entries →
          ∃ p, Pattern.parse key = .ok p ∧ p.display = key)
      ∧ (store.entries.Pairwise fun a b => ∀ p q,
          Pattern.parse a.1 = .ok p → Pattern.parse b.1 = .ok q → p.segments ≠ q.segments)
      ∧ store.size = store.entries.length
      ∧ ∀ text name, Pattern.name text = .ok name →
          ∃ answer, store.get text = .ok answer
            ∧ ∀ answer', MostSpecific store.entries name answer' ↔ answer' = answer := by
  have hstore := h.wellFormed
  refine ⟨hstore.entries_ascend, fun _ _ hkey => hstore.parse_key hkey, hstore.entries_paths,
    store.size_eq_length, fun text name hname => ?_⟩
  obtain ⟨hparse, hplain⟩ := Pattern.name_eq_ok_iff.1 hname
  have hspelled := (Pattern.wellFormed_of_parse hparse).toSpelled
  refine ⟨View.answer store.slot? name.segments, ?_, fun answer' => ⟨?_, ?_⟩⟩
  · rw [get, hname, ← store.lookup_eq_answer (Pattern.segments_ne_nil_of_name hname)]
    rfl
  · exact hstore.answer_of_mostSpecific hspelled hplain
  · intro heq
    subst heq
    exact hstore.mostSpecific_answer hspelled hplain

/-- On below `a`, off for `a.b` alone. -/
def switchboard : RuleStore String :=
  (empty.insert ⟨["a"], true⟩ "on").insert ⟨["a", "b"], false⟩ "off"

theorem Reachable.lookup_most_specific_switchboard :
    switchboard.Reachable
      ∧ switchboard.rules = [(⟨["a"], true⟩, "on"), (⟨["a", "b"], false⟩, "off")]
      ∧ switchboard.get "a.b.c" = .ok (some "on")
      ∧ MostSpecific switchboard.entries ⟨["a", "b", "c"], false⟩ (some "on") := by
  have hreach : switchboard.Reachable := by
    have hwild : Pattern.parse "a.*" = .ok ⟨["a"], true⟩ := by rfl
    have hexact : Pattern.parse "a.b" = .ok ⟨["a", "b"], false⟩ := by rfl
    exact (Reachable.empty.insert "on" hwild).insert "off" hexact
  have hget : switchboard.get "a.b.c" = .ok (some "on") := by rfl
  obtain ⟨-, -, -, -, hlookup⟩ := hreach.lookup_most_specific
  obtain ⟨answer, hanswer, hspecific⟩ := hlookup "a.b.c" ⟨["a", "b", "c"], false⟩ (by rfl)
  rw [hget] at hanswer
  exact ⟨hreach, by decide +kernel, hget, (hspecific _).2 (Except.ok.inj hanswer)⟩

end RuleStore

end LayeredLexer
