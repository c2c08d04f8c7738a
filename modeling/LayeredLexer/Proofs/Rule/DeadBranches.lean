/-
Branches that lead to no rule. Putting a rule creates the nodes on its
path before it is known whether the rule is kept, and clears the node at
the end if it is not; then one branch at most is cut off. This file shows
that one cut is enough: in every store that calls can build, each node
but the root has a rule at or below it (`Alive`). What is asked about
nodes is therefore an answer about rules.

# Why one cut is enough

A change at the end of a path can take rules away from the nodes of this
path only, and if one of them has lost its last rule, so have those below
it: they hang on the path alone. The cut removes the first one, and with
it all the others. `Alive.prune_modify` is this argument as an induction
on the path: the child that the change went through either still has a
rule, so that the cut goes on below it, or it has none and is gone, with
the siblings as they were.
-/
import LayeredLexer.Proofs.Rule.Entries

namespace LayeredLexer

variable {ρ : Type}

-- ============================================================ vocabulary

/-- Every branch leads to a rule. -/
def Branches.Alive : Branches ρ → Prop
  | .none => True
  | .branch _ slot below rest =>
      (slot.isSome || below.holdsRule) = true ∧ below.Alive ∧ rest.Alive

/-- Every node but the root has a rule at or below it. -/
def RuleStore.Alive (store : RuleStore ρ) : Prop := store.below.Alive

/-- Some entry is on a path of this kind. -/
def SomeEntry (entries : List (String × ρ)) (on : List String → Prop) : Prop :=
  ∃ key rule p, (key, rule) ∈ entries ∧ Pattern.parse key = .ok p ∧ on p.segments

-- ============================================================== branches

namespace Branches

variable {b : Branches ρ} {s : String}

theorem Alive.find? (hb : b.Alive) {child : RuleStore ρ} (h : b.find? s = some child) :
    child.holdsRule = true ∧ child.Alive := by
  induction b with
  | none => cases h
  | branch t slot below rest _ ih =>
      obtain ⟨hheld, hbelow, hrest⟩ := hb
      by_cases hts : t = s
      · rw [Branches.find?, if_pos hts] at h
        cases h
        exact ⟨hheld, hbelow⟩
      · rw [Branches.find?, if_neg hts] at h
        exact ih hrest h

theorem Alive.put (hb : b.Alive) {node : RuleStore ρ} (hheld : node.holdsRule = true)
    (hnode : node.Alive) : (b.put s node).Alive := by
  induction b with
  | none => exact ⟨hheld, hnode, trivial⟩
  | branch t slot below rest _ ih =>
      obtain ⟨hother, hbelow, hrest⟩ := hb
      by_cases hts : t = s
      · rw [Branches.put, if_pos hts]
        exact ⟨hheld, hnode, hrest⟩
      · rw [Branches.put, if_neg hts]
        exact ⟨hother, hbelow, ih hrest⟩

theorem Alive.erase (hb : b.Alive) : (b.erase s).Alive := by
  induction b with
  | none => trivial
  | branch t slot below rest _ ih =>
      obtain ⟨hother, hbelow, hrest⟩ := hb
      by_cases hts : t = s
      · rw [Branches.erase, if_pos hts]
        exact hrest
      · rw [Branches.erase, if_neg hts]
        exact ⟨hother, hbelow, ih hrest⟩

/-- Of two children put under one segment the later one stays. -/
theorem put_put (b : Branches ρ) (s : String) (first second : RuleStore ρ) :
    (b.put s first).put s second = b.put s second := by
  induction b with
  | none => simp [put]
  | branch t slot below rest _ ih =>
      by_cases hts : t = s
      · simp [put, hts]
      · simp [put, hts, ih]

/-- Erasing undoes a put, up to what was there before. -/
theorem erase_put (b : Branches ρ) (s : String) (node : RuleStore ρ) :
    (b.put s node).erase s = b.erase s := by
  induction b with
  | none => simp [put, erase]
  | branch t slot below rest _ ih =>
      by_cases hts : t = s
      · simp [put, erase, hts]
      · simp [put, erase, hts, ih]

/-- Branches that hold a rule list one. -/
theorem exists_mem_rules (h : b.holdsRule = true) (path : List String) :
    ∃ p rule, (p, rule) ∈ b.rules path := by
  induction b generalizing path with
  | none => cases h
  | branch s slot below rest ihBelow ihRest =>
      rw [rules]
      cases slot with
      | some slot => exact ⟨_, _, List.mem_append_left _ (List.mem_append_left _ List.mem_cons_self)⟩
      | none =>
          rcases Bool.or_eq_true_iff.1 h with hbelow | hrest
          · obtain ⟨p, rule, hp⟩ := ihBelow hbelow (path ++ [s])
            exact ⟨p, rule, List.mem_append_left _ (List.mem_append_right _ hp)⟩
          · obtain ⟨p, rule, hp⟩ := ihRest hrest path
            exact ⟨p, rule, List.mem_append_right _ hp⟩

end Branches

-- ================================================================= nodes

namespace RuleStore

/-- A node has a rule at or below it exactly if its view holds one. -/
theorem holdsRule_iff {store : RuleStore ρ} (h : store.Distinct) :
    store.holdsRule = true ↔ ∃ path slot, store.slot? path = some slot := by
  constructor
  · intro hheld
    cases hslot : store.slot with
    | some slot => exact ⟨[], slot, hslot⟩
    | none =>
        have hbelow : store.below.holdsRule = true := by
          simpa [holdsRule, hslot] using hheld
        obtain ⟨p, rule, hp⟩ := Branches.exists_mem_rules hbelow []
        exact ⟨p.segments, _, (mem_rules h).1 (List.mem_append_right _ hp)⟩
  · rintro ⟨path, slot, hslot⟩
    exact holdsRule_of_slot? hslot

variable {store node : RuleStore ρ} {path : List String}

/-- Below a node the store holds what the node does. -/
theorem slot?_descend (h : store.descend? path = some node) (rest : List String) :
    node.slot? rest = store.slot? (path ++ rest) := by
  rw [← slot?_descend_append, h, Option.getD_some]

/-- A path that is held has all its nodes. -/
theorem exists_descend {rest : List String} {slot : Slot ρ}
    (h : store.slot? (path ++ rest) = some slot) :
    ∃ node, store.descend? path = some node ∧ node.slot? rest = some slot := by
  rw [← slot?_descend_append] at h
  cases hnode : store.descend? path with
  | none =>
      rw [hnode, Option.getD_none, slot?_empty] at h
      cases h
  | some node =>
      rw [hnode] at h
      exact ⟨node, rfl, h⟩

theorem Distinct.descend (hstore : store.Distinct) (h : store.descend? path = some node) :
    node.Distinct := by
  induction path generalizing store with
  | nil =>
      cases h
      exact hstore
  | cons s path ih =>
      obtain ⟨child, hfind, hnode⟩ := Option.bind_eq_some_iff.1 h
      exact ih (Branches.Distinct.find? hstore hfind) hnode

/-- Every node at the end of a path is alive, and holds a rule unless it is
the root. -/
theorem Alive.descend (hstore : store.Alive) (h : store.descend? path = some node) :
    node.Alive ∧ (path ≠ [] → node.holdsRule = true) := by
  induction path generalizing store with
  | nil =>
      cases h
      exact ⟨hstore, fun hne => absurd rfl hne⟩
  | cons s path ih =>
      obtain ⟨child, hfind, hnode⟩ := Option.bind_eq_some_iff.1 h
      obtain ⟨hheld, hchild⟩ := Branches.Alive.find? hstore hfind
      obtain ⟨halive, hbelow⟩ := ih hchild hnode
      refine ⟨halive, fun _ => ?_⟩
      cases path with
      | nil =>
          cases hnode
          exact hheld
      | cons t path => exact hbelow (List.cons_ne_nil t path)

-- ============================================================ the one cut

/-- A cut takes no rule away. -/
theorem holdsRule_prune (h : store.Distinct) (path : List String) :
    (store.prune path).holdsRule = true ↔ store.holdsRule = true := by
  rw [holdsRule_iff h, holdsRule_iff (h.prune path)]
  simp only [slot?_prune h]

section Cut

variable {change : RuleStore ρ → RuleStore ρ} {slot : Option (Slot ρ)} {wildcard : Bool}
  (hchange : ∀ node, change node = ⟨slot, if wildcard then .none else node.below⟩)

include hchange

/-- After a change at the end of a path, one cut along it leaves no dead
branch. -/
theorem Alive.prune_modify (hdistinct : store.Distinct) (halive : store.Alive)
    (path : List String) : ((store.modify change path).prune path).Alive := by
  induction path generalizing store with
  | nil =>
      rw [modify, prune, hchange]
      cases wildcard with
      | true => trivial
      | false => exact halive
  | cons s path ih =>
      -- the child that the change goes through, as it was
      have hchild : ((store.below.find? s).getD empty).Distinct
          ∧ ((store.below.find? s).getD empty).Alive := by
        cases hfind : store.below.find? s with
        | none => exact ⟨trivial, trivial⟩
        | some child =>
            exact ⟨Branches.Distinct.find? hdistinct hfind, (Branches.Alive.find? halive hfind).2⟩
      have hcut := ih hchild.1 hchild.2
      have hmodified := hchild.1.modify hchange path
      rw [modify, prune]
      dsimp only
      rw [Branches.find?_put_self]
      dsimp only
      split
      next hheld =>
        show Branches.Alive _
        rw [Branches.put_put]
        exact Branches.Alive.put halive ((holdsRule_prune hmodified path).2 hheld) hcut
      next hdead =>
        show Branches.Alive _
        rw [Branches.erase_put]
        exact Branches.Alive.erase halive

end Cut

/-- A rule that is stored keeps its whole path alive. -/
theorem Alive.modify_assign (halive : store.Alive) (wildcard : Bool) (rule : ρ)
    (path : List String) :
    (store.modify (assign wildcard rule) path).Alive
      ∧ (store.modify (assign wildcard rule) path).holdsRule = true := by
  induction path generalizing store with
  | nil =>
      refine ⟨?_, rfl⟩
      cases wildcard with
      | true => trivial
      | false => exact halive
  | cons s path ih =>
      have hchild : ((store.below.find? s).getD empty).Alive := by
        cases hfind : store.below.find? s with
        | none => trivial
        | some child => exact (Branches.Alive.find? halive hfind).2
      obtain ⟨hbelow, hheld⟩ := ih hchild
      refine ⟨Branches.Alive.put halive hheld hbelow, ?_⟩
      have hput := Branches.holdsRule_of_find? (Branches.find?_put_self store.below s _) hheld
      exact Bool.or_eq_true_iff.2 (.inr hput)

-- =============================================================== queries

namespace WellFormed

variable {store : RuleStore ρ} (h : store.WellFormed)

include h

/-- The entries are on the paths that hold something. -/
theorem someEntry_iff {on : List String → Prop} :
    SomeEntry store.entries on ↔ ∃ path slot, store.slot? path = some slot ∧ on path := by
  constructor
  · rintro ⟨key, rule, p, hkey, hp, hon⟩
    obtain ⟨-, hslot⟩ := h.slot?_of_mem_entries hkey hp
    exact ⟨p.segments, _, hslot, hon⟩
  · rintro ⟨path, slot, hslot, hon⟩
    exact ⟨_, slot.rule, slot.pattern path, h.display_mem_entries hslot,
      Pattern.parse_display (h.patterns hslot), hon⟩

variable (halive : store.Alive)

include halive

/-- A path has a node if an entry is on it or below it, and at the root. -/
theorem containsNode_iff (p : Pattern) :
    store.containsNode p = true
      ↔ p.segments = [] ∨ SomeEntry store.entries fun path => p.segments <+: path := by
  rw [h.someEntry_iff, containsNode, Option.isSome_iff_exists]
  constructor
  · rintro ⟨node, hnode⟩
    by_cases hroot : p.segments = []
    · exact .inl hroot
    · have hheld := (halive.descend hnode).2 hroot
      obtain ⟨rest, slot, hslot⟩ := (holdsRule_iff (h.distinct.descend hnode)).1 hheld
      rw [slot?_descend hnode] at hslot
      exact .inr ⟨_, slot, hslot, List.prefix_append p.segments rest⟩
  · rintro (hroot | ⟨path, slot, hslot, rest, rfl⟩)
    · rw [hroot]
      exact ⟨store, rfl⟩
    · obtain ⟨node, hnode, -⟩ := exists_descend hslot
      exact ⟨node, hnode⟩

/-- The node of a path has children if an entry is strictly below it. -/
theorem isOverridden_iff (p : Pattern) :
    store.isOverridden p = true
      ↔ p.wildcard = true
        ∧ SomeEntry store.entries fun path => p.segments <+: path ∧ p.segments ≠ path := by
  rw [h.someEntry_iff, isOverridden, Bool.and_eq_true, Option.any_eq_true]
  refine and_congr_right fun _ => ⟨?_, ?_⟩
  · rintro ⟨node, hnode, hsome⟩
    obtain ⟨hbelow, -⟩ := halive.descend hnode
    have hdistinct := h.distinct.descend hnode
    obtain ⟨here, below⟩ := node
    cases below with
    | none => cases hsome
    | branch s slot below rest =>
        -- the first child, and what it holds
        have hchild : (⟨slot, below⟩ : RuleStore ρ).Distinct := hdistinct.2.1
        obtain ⟨path, held, hheld⟩ := (holdsRule_iff hchild).1 hbelow.1
        have hslot : (⟨here, .branch s slot below rest⟩ : RuleStore ρ).slot? (s :: path)
            = some held := by
          rw [slot?_cons, Branches.find?, if_pos rfl]
          exact hheld
        rw [slot?_descend hnode] at hslot
        refine ⟨_, held, hslot, List.prefix_append _ _, fun heq => ?_⟩
        exact List.cons_ne_nil s path (List.self_eq_append_right.1 heq)
  · rintro ⟨path, slot, hslot, ⟨rest, rfl⟩, hne⟩
    obtain ⟨node, hnode, hheld⟩ := exists_descend hslot
    refine ⟨node, hnode, ?_⟩
    cases rest with
    | nil => exact absurd (List.append_nil _).symm hne
    | cons s rest =>
        rw [slot?_cons] at hheld
        cases hbelow : node.below with
        | none =>
            rw [hbelow] at hheld
            cases hheld
        | branch => rfl

end WellFormed

-- ================================================================= calls

variable [DecidableEq ρ]

/-- Putting a rule leaves no dead branch, stored or dropped. -/
theorem Alive.insert (hdistinct : store.Distinct) (halive : store.Alive) (p : Pattern) (rule : ρ) :
    (store.insert p rule).Alive := by
  unfold RuleStore.insert
  split
  · exact Alive.prune_modify (fun _ => rfl) hdistinct halive p.segments
  · exact (Alive.modify_assign halive p.wildcard rule p.segments).1

theorem Reachable.alive (h : store.Reachable) : store.Alive := by
  have hboth : store.WellFormed ∧ store.Alive := by
    refine @Reachable.invariant ρ _ (fun s => s.WellFormed ∧ s.Alive) store ?_ ?_ h
    · rintro store p rule ⟨hwell, halive⟩ hp
      exact ⟨hwell.insert rule hp, Alive.insert hwell.distinct halive p rule⟩
    · exact ⟨WellFormed.empty, trivial⟩
  exact hboth.2

/-- In every store that calls can build, each node but the root has a rule
at or below it; a path has a node exactly if it is the root or an entry is
on it or below it, and a starred pattern is overridden exactly if an entry
is strictly below its path. -/
theorem Reachable.queries_about_rules (h : store.Reachable) :
    (∀ path node, path ≠ [] → store.descend? path = some node → node.holdsRule = true)
      ∧ ∀ p : Pattern,
        (store.containsNode p = true
            ↔ p.segments = [] ∨ SomeEntry store.entries fun path => p.segments <+: path)
          ∧ (store.isOverridden p = true
            ↔ p.wildcard = true
              ∧ SomeEntry store.entries fun path => p.segments <+: path ∧ p.segments ≠ path) := by
  have hwell := h.wellFormed
  have halive := h.alive
  refine ⟨fun path node hne hnode => (halive.descend hnode).2 hne, fun p => ⟨?_, ?_⟩⟩
  · exact hwell.containsNode_iff halive p
  · exact hwell.isOverridden_iff halive p

/-- On below `a`, off for `a.d.e`; what was below `a.b` is gone again, since
`a.b.c` was set back to what it inherits. -/
def mown : RuleStore String :=
  (((empty.insert ⟨["a"], true⟩ "on").insert ⟨["a", "d", "e"], false⟩ "off").insert
    ⟨["a", "b", "c"], true⟩ "off").insert ⟨["a", "b", "c"], false⟩ "on"

theorem Reachable.queries_about_rules_mown :
    mown.Reachable
      ∧ (mown.containsNode ⟨["a", "d"], false⟩ = true
        ∧ SomeEntry mown.entries fun path => ["a", "d"] <+: path)
      ∧ (mown.containsNode ⟨["a", "b"], false⟩ = false
        ∧ ¬ SomeEntry mown.entries fun path => ["a", "b"] <+: path)
      ∧ (mown.isOverridden ⟨["a"], true⟩ = true
        ∧ SomeEntry mown.entries fun path => ["a"] <+: path ∧ ["a"] ≠ path) := by
  have hreach : mown.Reachable := by
    have hroot : Pattern.parse "a.*" = .ok ⟨["a"], true⟩ := by rfl
    have hother : Pattern.parse "a.d.e" = .ok ⟨["a", "d", "e"], false⟩ := by rfl
    have hwild : Pattern.parse "a.b.c.*" = .ok ⟨["a", "b", "c"], true⟩ := by rfl
    have hexact : Pattern.parse "a.b.c" = .ok ⟨["a", "b", "c"], false⟩ := by rfl
    exact (((Reachable.empty.insert "on" hroot).insert "off" hother).insert "off" hwild).insert
      "on" hexact
  obtain ⟨-, hqueries⟩ := hreach.queries_about_rules
  obtain ⟨hkept, -⟩ := hqueries ⟨["a", "d"], false⟩
  obtain ⟨hgone, -⟩ := hqueries ⟨["a", "b"], false⟩
  obtain ⟨-, hstarred⟩ := hqueries ⟨["a"], true⟩
  have hno : mown.containsNode ⟨["a", "b"], false⟩ = false := by rfl
  refine ⟨hreach, ⟨by rfl, ?_⟩, ⟨hno, fun hentry => ?_⟩, ⟨by rfl, (hstarred.1 (by rfl)).2⟩⟩
  · exact (hkept.1 (by rfl)).resolve_left (List.cons_ne_nil _ _)
  · rw [hgone.2 (.inr hentry)] at hno
    cases hno

end RuleStore

end LayeredLexer
