/-
A store of rules as a view: what it holds on each path (`slot?`). Every
operation of the tree is one equation about this view, and after this
file nobody follows the tree again: putting a rule changes its own path
and, for a starred pattern, empties all paths below it (`slot?_insert`);
cutting off a dead branch changes nothing (`slot?_prune`).

# Distinct segments

The last of these needs the one thing the tree owes: the siblings at a
node have different segments (`Distinct`). Only then is a branch that is
erased really gone. Every operation keeps it.
-/
import LayeredLexer.Rule.Store

namespace LayeredLexer

variable {ρ : Type}

-- ============================================================== branches

namespace Branches

/-- The segments at the top. -/
def segments : Branches ρ → List String
  | .none => []
  | .branch segment _ _ rest => segment :: rest.segments

/-- Siblings have different segments, here and everywhere below. -/
def Distinct : Branches ρ → Prop
  | .none => True
  | .branch segment _ below rest => segment ∉ rest.segments ∧ below.Distinct ∧ rest.Distinct

theorem find?_put_self (b : Branches ρ) (s : String) (node : RuleStore ρ) :
    (b.put s node).find? s = some node := by
  induction b with
  | none => simp [put, find?]
  | branch t slot below rest _ ih =>
      by_cases h : t = s
      · simp [put, find?, h]
      · simpa [put, find?, h] using ih

theorem find?_put_of_ne (b : Branches ρ) {s t : String} (hne : t ≠ s) (node : RuleStore ρ) :
    (b.put s node).find? t = b.find? t := by
  induction b with
  | none => simp [put, find?, hne.symm]
  | branch u slot below rest _ ih =>
      by_cases h : u = s
      · subst h
        simp [put, find?, hne.symm]
      · simp only [put, if_neg h, find?, ih]

theorem find?_erase_of_ne (b : Branches ρ) {s t : String} (hne : t ≠ s) :
    (b.erase s).find? t = b.find? t := by
  induction b with
  | none => rfl
  | branch u slot below rest _ ih =>
      by_cases h : u = s
      · subst h
        simp [erase, find?, hne.symm]
      · simp only [erase, if_neg h, find?, ih]

/-- A segment is at the top if there is a child under it. -/
theorem mem_segments_of_find? {b : Branches ρ} {s : String} {child : RuleStore ρ}
    (h : b.find? s = some child) : s ∈ b.segments := by
  induction b with
  | none => cases h
  | branch t slot below rest _ ih =>
      by_cases hts : t = s
      · simp [segments, hts]
      · rw [find?, if_neg hts] at h
        exact List.mem_cons_of_mem _ (ih h)

/-- A child with a rule makes its siblings and itself hold one. -/
theorem holdsRule_of_find? {b : Branches ρ} {s : String} {child : RuleStore ρ}
    (h : b.find? s = some child) (hchild : child.holdsRule) : b.holdsRule := by
  induction b with
  | none => cases h
  | branch t slot below rest _ ih =>
      by_cases hts : t = s
      · rw [find?, if_pos hts] at h
        cases h
        exact Bool.or_eq_true_iff.2 (.inl hchild)
      · rw [find?, if_neg hts] at h
        exact Bool.or_eq_true_iff.2 (.inr (ih h))

theorem mem_segments_put {b : Branches ρ} {s t : String} {node : RuleStore ρ} :
    t ∈ (b.put s node).segments ↔ t = s ∨ t ∈ b.segments := by
  induction b with
  | none => simp [put, segments]
  | branch u slot below rest _ ih =>
      by_cases h : u = s
      · simp [put, segments, h]
      · simp only [put, if_neg h, segments, List.mem_cons, ih]
        exact or_left_comm

theorem mem_segments_of_mem_erase {b : Branches ρ} {s t : String}
    (h : t ∈ (b.erase s).segments) : t ∈ b.segments := by
  induction b with
  | none => exact h
  | branch u slot below rest _ ih =>
      by_cases hus : u = s
      · rw [erase, if_pos hus] at h
        exact List.mem_cons_of_mem _ h
      · rw [erase, if_neg hus] at h
        rcases List.mem_cons.1 h with rfl | h
        · exact List.mem_cons_self
        · exact List.mem_cons_of_mem _ (ih h)

-- ------------------------------------------------------ distinct segments

variable {b : Branches ρ} {s : String}

theorem Distinct.find? (hb : b.Distinct) {child : RuleStore ρ} (h : b.find? s = some child) :
    child.below.Distinct := by
  induction b with
  | none => cases h
  | branch t slot below rest _ ih =>
      by_cases hts : t = s
      · rw [Branches.find?, if_pos hts] at h
        cases h
        exact hb.2.1
      · rw [Branches.find?, if_neg hts] at h
        exact ih hb.2.2 h

theorem Distinct.put (hb : b.Distinct) {node : RuleStore ρ} (hnode : node.below.Distinct) :
    (b.put s node).Distinct := by
  induction b with
  | none => exact ⟨List.not_mem_nil, hnode, trivial⟩
  | branch t slot below rest _ ih =>
      obtain ⟨hnew, hbelow, hrest⟩ := hb
      by_cases hts : t = s
      · rw [Branches.put, if_pos hts]
        exact ⟨hnew, hnode, hrest⟩
      · rw [Branches.put, if_neg hts]
        refine ⟨?_, hbelow, ih hrest⟩
        rw [mem_segments_put]
        exact not_or.2 ⟨hts, hnew⟩

theorem Distinct.erase (hb : b.Distinct) : (b.erase s).Distinct := by
  induction b with
  | none => trivial
  | branch t slot below rest _ ih =>
      obtain ⟨hnew, hbelow, hrest⟩ := hb
      by_cases hts : t = s
      · rw [Branches.erase, if_pos hts]
        exact hrest
      · rw [Branches.erase, if_neg hts]
        exact ⟨fun h => hnew (mem_segments_of_mem_erase h), hbelow, ih hrest⟩

/-- Among distinct segments an erased one is gone. -/
theorem Distinct.find?_erase_self (hb : b.Distinct) : (b.erase s).find? s = .none := by
  induction b with
  | none => rfl
  | branch t slot below rest _ ih =>
      obtain ⟨hnew, -, hrest⟩ := hb
      by_cases hts : t = s
      · subst hts
        rw [Branches.erase, if_pos rfl]
        cases hfind : rest.find? t with
        | none => rfl
        | some child => exact absurd (mem_segments_of_find? hfind) hnew
      · rw [Branches.erase, if_neg hts, Branches.find?, if_neg hts]
        exact ih hrest

end Branches

-- ================================================================= nodes

namespace RuleStore

/-- What the store holds on a path. -/
def slot? (store : RuleStore ρ) (path : List String) : Option (Slot ρ) :=
  (store.descend? path).bind (·.slot)

/-- Siblings have different segments, everywhere in the store. -/
def Distinct (store : RuleStore ρ) : Prop := store.below.Distinct

theorem slot?_nil (store : RuleStore ρ) : store.slot? [] = store.slot := rfl

theorem slot?_cons (store : RuleStore ρ) (s : String) (path : List String) :
    store.slot? (s :: path) = (store.below.find? s).bind (·.slot? path) := by
  unfold slot?
  rw [descend?]
  cases store.below.find? s <;> rfl

theorem slot?_empty (path : List String) : (empty : RuleStore ρ).slot? path = none := by
  cases path <;> rfl

/-- A child that is missing reads like one without rules. -/
theorem slot?_cons_eq_getD (store : RuleStore ρ) (s : String) (path : List String) :
    store.slot? (s :: path) = ((store.below.find? s).getD empty).slot? path := by
  rw [slot?_cons]
  cases store.below.find? s with
  | none => exact (slot?_empty path).symm
  | some child => rfl

/-- Where a rule is on a path, there is a rule in the store. -/
theorem holdsRule_of_slot? {store : RuleStore ρ} {path : List String} {slot : Slot ρ}
    (h : store.slot? path = some slot) : store.holdsRule := by
  induction path generalizing store with
  | nil =>
      rw [slot?_nil] at h
      simp [holdsRule, h]
  | cons s path ih =>
      rw [slot?_cons] at h
      obtain ⟨child, hfind, hslot⟩ := Option.bind_eq_some_iff.1 h
      have hbelow : store.below.holdsRule := Branches.holdsRule_of_find? hfind (ih hslot)
      simp [holdsRule, hbelow]

-- ================================================================ modify

/-- Below the path that is modified, the new node is what counts. -/
theorem slot?_modify_append (change : RuleStore ρ → RuleStore ρ) (path rest : List String)
    (store : RuleStore ρ) :
    (store.modify change path).slot? (path ++ rest)
      = (change ((store.descend? path).getD empty)).slot? rest := by
  induction path generalizing store with
  | nil => rfl
  | cons s path ih =>
      rw [List.cons_append, modify, slot?_cons, Branches.find?_put_self, Option.bind_some, ih,
        descend?]
      cases store.below.find? s with
      | none => cases path <;> rfl
      | some child => rfl

/-- All other paths are left alone. -/
theorem slot?_modify_off_path (change : RuleStore ρ → RuleStore ρ) {path q : List String}
    (h : ¬ path <+: q) (store : RuleStore ρ) :
    (store.modify change path).slot? q = store.slot? q := by
  induction path generalizing store q with
  | nil => exact absurd List.nil_prefix h
  | cons s path ih =>
      cases q with
      | nil => rfl
      | cons t q =>
          by_cases hts : t = s
          · subst hts
            have hq : ¬ path <+: q := fun hq => h (List.cons_prefix_cons.2 ⟨rfl, hq⟩)
            rw [modify, slot?_cons, Branches.find?_put_self, Option.bind_some, ih hq,
              slot?_cons_eq_getD]
          · rw [modify, slot?_cons, Branches.find?_put_of_ne _ hts, ← slot?_cons]

theorem slot?_descend_append (store : RuleStore ρ) (path rest : List String) :
    ((store.descend? path).getD empty).slot? rest = store.slot? (path ++ rest) := by
  induction path generalizing store with
  | nil => rfl
  | cons s path ih =>
      rw [List.cons_append, slot?_cons_eq_getD, ← ih, descend?]
      cases store.below.find? s with
      | none => cases path <;> rfl
      | some child => rfl

/-- Both changes that `insert` makes give the node a new slot, and drop
what is below it for a starred pattern. -/
theorem slot?_modify_of_slot {change : RuleStore ρ → RuleStore ρ} {slot : Option (Slot ρ)}
    {wildcard : Bool}
    (hchange : ∀ node, change node = ⟨slot, if wildcard then .none else node.below⟩)
    (path q : List String) (store : RuleStore ρ) :
    (store.modify change path).slot? q
      = if q = path then slot
        else if wildcard ∧ path <+: q then none else store.slot? q := by
  by_cases hunder : path <+: q
  · obtain ⟨rest, rfl⟩ := hunder
    rw [slot?_modify_append, hchange]
    cases rest with
    | nil => simp [slot?_nil]
    | cons s rest =>
        cases wildcard with
        | true => simp [slot?_cons, Branches.find?]
        | false =>
            have hbelow := slot?_descend_append store path (s :: rest)
            rw [slot?_cons] at hbelow
            simpa [slot?_cons] using hbelow
  · have hne : q ≠ path := fun heq => hunder (heq ▸ List.prefix_rfl)
    simp [slot?_modify_off_path change hunder, hne, hunder]

theorem Distinct.modify {change : RuleStore ρ → RuleStore ρ} {slot : Option (Slot ρ)}
    {wildcard : Bool}
    (hchange : ∀ node, change node = ⟨slot, if wildcard then .none else node.below⟩)
    {store : RuleStore ρ} (h : store.Distinct) (path : List String) :
    (store.modify change path).Distinct := by
  induction path generalizing store with
  | nil =>
      rw [RuleStore.modify, hchange]
      cases wildcard with
      | true => trivial
      | false => exact h
  | cons s path ih =>
      refine Branches.Distinct.put h (ih ?_)
      cases hfind : store.below.find? s with
      | none => trivial
      | some child => exact Branches.Distinct.find? h hfind

-- ================================================================= prune

/-- Cutting off a branch without rules takes no rule away. -/
theorem slot?_prune {store : RuleStore ρ} (h : store.Distinct) (path q : List String) :
    (store.prune path).slot? q = store.slot? q := by
  induction path generalizing store q with
  | nil => rfl
  | cons s path ih =>
      rw [prune]
      cases hfind : store.below.find? s with
      | none => rfl
      | some child =>
          cases q with
          | nil => dsimp only; split <;> rfl
          | cons t q =>
              by_cases hts : t = s
              · subst hts
                rw [slot?_cons store, hfind]
                dsimp only
                split
                · rw [slot?_cons, Branches.find?_put_self]
                  exact ih (Branches.Distinct.find? h hfind) q
                next hdead =>
                  -- the child is gone, but no path through it held a rule
                  rw [slot?_cons, Branches.Distinct.find?_erase_self h]
                  cases hslot : child.slot? q with
                  | none => simp [hslot]
                  | some slot => exact absurd (holdsRule_of_slot? hslot) hdead
              · dsimp only
                split
                · rw [slot?_cons, Branches.find?_put_of_ne _ hts, ← slot?_cons]
                · rw [slot?_cons, Branches.find?_erase_of_ne _ hts, ← slot?_cons]

theorem Distinct.prune {store : RuleStore ρ} (h : store.Distinct) (path : List String) :
    (store.prune path).Distinct := by
  induction path generalizing store with
  | nil => exact h
  | cons s path ih =>
      rw [RuleStore.prune]
      cases hfind : store.below.find? s with
      | none => exact h
      | some child =>
          dsimp only
          split
          · exact Branches.Distinct.put h (ih (Branches.Distinct.find? h hfind))
          · exact Branches.Distinct.erase h

-- ================================================================ insert

variable [DecidableEq ρ] {store : RuleStore ρ}

theorem Distinct.insert (h : store.Distinct) (p : Pattern) (rule : ρ) :
    (store.insert p rule).Distinct := by
  unfold RuleStore.insert
  split
  · exact (Distinct.modify (fun _ => rfl) h _).prune _
  · exact Distinct.modify (fun _ => rfl) h _

/-- What a store holds after a rule was put under a pattern. -/
theorem slot?_insert (h : store.Distinct) (p : Pattern) (rule : ρ) (q : List String) :
    (store.insert p rule).slot? q
      = if q = p.segments then
          if store.isRedundant p rule then none else some ⟨rule, !p.wildcard⟩
        else if p.wildcard ∧ p.segments <+: q then none
        else store.slot? q := by
  unfold RuleStore.insert
  split
  · have hclear : (store.modify (clear p.wildcard) p.segments).Distinct :=
      Distinct.modify (fun _ => rfl) h _
    rw [slot?_prune hclear]
    exact slot?_modify_of_slot (fun _ => rfl) _ _ _
  · exact slot?_modify_of_slot (fun _ => rfl) _ _ _

/-- A path that is not at or below that of the pattern is left alone. -/
theorem slot?_insert_off_path (h : store.Distinct) {p : Pattern} {rule : ρ} {q : List String}
    (hoff : ¬ p.segments <+: q) : (store.insert p rule).slot? q = store.slot? q := by
  have hother : q ≠ p.segments := fun heq => hoff (heq ▸ List.prefix_rfl)
  rw [slot?_insert h, if_neg hother, if_neg fun hbelow => hoff hbelow.2]

/-- A plain pattern leaves all paths but its own alone. -/
theorem slot?_insert_plain (h : store.Distinct) {p : Pattern} {rule : ρ} {q : List String}
    (hplain : p.wildcard = false) (hother : q ≠ p.segments) :
    (store.insert p rule).slot? q = store.slot? q := by
  rw [slot?_insert h, if_neg hother, hplain, if_neg fun hbelow => Bool.false_ne_true hbelow.1]

end RuleStore

end LayeredLexer
