/-
What putting a rule changes and what it leaves alone. The names that a
pattern stands for get its rule, and no other name is touched, with one
exception.

# Stored or dropped

A rule that is put is stored, or it is dropped because its path inherits
it. Either way the name of the path gets it (`answer_insert_self`): a
stored rule is held there, and where it was dropped the path is left
empty and inherits it. A starred pattern leaves the paths below empty as
well, so the names there are answered like that of the path
(`View.answer_below`).

# The exception

A plain rule passes nothing on. If it takes the place of a starred one,
or is dropped in its place, the names below that had got the starred rule
are left to what the path itself inherits, and all others keep theirs
(`answer_insert_below`).
-/
import LayeredLexer.Proofs.Rule.Pruning

namespace LayeredLexer

variable {ρ : Type}

namespace View

/-- Where nothing is held below a path, the names there are answered like
that of the path, unless what it holds is for its own name alone. -/
theorem answer_below {view : View ρ} {path : List String}
    (hreaches : ∀ slot, view path = some slot → slot.exact = false)
    (hempty : ∀ s rest, view (path ++ s :: rest) = none) (rest : List String) :
    view.answer (path ++ rest) = view.answer path := by
  cases rest with
  | nil => rw [List.append_nil]
  | cons s rest =>
      have hbetween : above (fun q => view.passed (path ++ s :: q)) rest = none := by
        apply above_eq_none_iff.2
        intro q _
        rw [passed, hempty, Option.bind_none]
      have hpassed : view.passed path = (view path).map (·.rule) := by
        rw [passed]
        cases hslot : view path with
        | none => rfl
        | some slot => simp [Slot.inherited?, hreaches slot hslot]
      rw [answer_of_none (hempty s rest), inherited_below, hbetween, Option.none_or, hpassed,
        answer_eq]

end View

namespace RuleStore

variable [DecidableEq ρ] {store : RuleStore ρ} {p : Pattern} {rule : ρ} {path : List String}

-- ============================================================== the effect

/-- The path of a pattern gets the rule that is put, stored or dropped. -/
theorem answer_insert_self (h : store.Distinct) (p : Pattern) (rule : ρ) :
    View.answer (store.insert p rule).slot? p.segments = some rule := by
  have hslot := slot?_insert h p rule p.segments
  rw [if_pos rfl] at hslot
  split at hslot
  next hredundant =>
    rw [View.answer_of_none hslot, ← inherited?_none, inherited?_insert h fun _ => rfl]
    exact eq_of_beq hredundant
  next => exact View.answer_of_some hslot

/-- So do all paths below, if the pattern is starred. -/
theorem answer_insert_starred (h : store.Distinct) (hstar : p.wildcard = true)
    (hbelow : p.segments <+: path) :
    View.answer (store.insert p rule).slot? path = some rule := by
  obtain ⟨rest, rfl⟩ := hbelow
  rw [View.answer_below ?_ ?_ rest, answer_insert_self h]
  · intro slot hslot
    rw [slot?_insert h, if_pos rfl] at hslot
    split at hslot
    · cases hslot
    · cases hslot
      rw [hstar]
      rfl
  · intro s rest
    rw [slot?_insert h, if_neg (by simp), if_pos ⟨hstar, List.prefix_append _ _⟩]

-- =============================================================== the frame

/-- A path that is not at or below that of the pattern keeps its answer. -/
theorem answer_insert_off_path (h : store.Distinct) (hoff : ¬ p.segments <+: path) :
    View.answer (store.insert p rule).slot? path = View.answer store.slot? path := by
  have hinherited : View.inherited (store.insert p rule).slot? path
      = View.inherited store.slot? path := by
    rw [← inherited?_none, ← inherited?_none]
    exact inherited?_insert h fun hbelow => absurd hbelow hoff
  rw [View.answer_eq, View.answer_eq, slot?_insert_off_path h hoff, hinherited]

/-- A path strictly below that of a plain pattern keeps its answer too,
unless it had got that from the path of the pattern. -/
theorem answer_insert_below (h : store.Distinct) (hplain : p.wildcard = false)
    (hbelow : p.segments <+: path) (hother : path ≠ p.segments) :
    View.answer (store.insert p rule).slot? path = View.answer store.slot? path
      ∨ ∃ old, View.passed store.slot? p.segments = some old
          ∧ View.answer store.slot? path = some old
          ∧ View.answer (store.insert p rule).slot? path
              = View.inherited store.slot? p.segments := by
  obtain ⟨rest, rfl⟩ := hbelow
  cases rest with
  | nil => exact absurd (List.append_nil _) hother
  | cons s rest =>
      rw [View.answer_eq, View.answer_eq, slot?_insert_plain h hplain hother,
        inherited_insert_below h hplain, View.inherited_below]
      -- in the order of what counts: the path, those in between, that of the pattern
      cases store.slot? (p.segments ++ s :: rest) with
      | some slot => exact .inl rfl
      | none =>
          cases above (fun q => View.passed store.slot? (p.segments ++ s :: q)) rest with
          | some between => exact .inl rfl
          | none =>
              cases View.passed store.slot? p.segments with
              | none => exact .inl rfl
              | some old => exact .inr ⟨old, rfl, rfl, rfl⟩

-- ================================================================ requests

/-- Putting a rule under a starred pattern gives it to the names at and
below the path, and to no other; under a plain one, to the name of the
path. Then another name changes only if it is below, had the rule of a
starred entry on the path, and is left to what the path inherits. -/
theorem Reachable.put_changes (h : store.Reachable) {text : String}
    (hparse : Pattern.parse text = .ok p) (rule : ρ) :
    ∃ next event, store.put text rule = .ok (next, event)
      ∧ ∀ query name, Pattern.name query = .ok name →
        (p.wildcard = true →
          (p.segments <+: name.segments → next.get query = .ok (some rule))
            ∧ (¬ p.segments <+: name.segments → next.get query = store.get query))
        ∧ (p.wildcard = false →
          (name.segments = p.segments → next.get query = .ok (some rule))
            ∧ (name.segments ≠ p.segments → next.get query = store.get query
              ∨ p.segments <+: name.segments
                ∧ ∃ old, (starredKey p.segments, old) ∈ store.entries
                  ∧ store.get query = .ok (some old)
                  ∧ next.get query = .ok (store.inherited? none p.segments))) := by
  have hdistinct := h.wellFormed.distinct
  refine ⟨store.insert p rule, _, put_eq_ok_iff.2 ⟨p, hparse, rfl, rfl⟩, ?_⟩
  intro query name hname
  have hget : ∀ s : RuleStore ρ, s.get query = .ok (View.answer s.slot? name.segments) := by
    intro s
    rw [get_eq_view, View.get, hname]
    rfl
  simp only [hget, Except.ok.injEq]
  constructor
  · intro hstar
    exact ⟨answer_insert_starred hdistinct hstar, answer_insert_off_path hdistinct⟩
  · intro hplain
    constructor
    · intro hown
      rw [hown]
      exact answer_insert_self hdistinct p rule
    · intro hother
      by_cases hbelow : p.segments <+: name.segments
      · apply (answer_insert_below hdistinct hplain hbelow hother).imp_right
        intro hfell
        obtain ⟨old, hpassed, hbefore, hafter⟩ := hfell
        have hspelled := (Pattern.wellFormed_of_parse hparse).toSpelled
        refine ⟨hbelow, old, ?_, hbefore, ?_⟩
        · exact (h.wellFormed.mem_entries_starred hspelled List.prefix_rfl).2 hpassed
        · rw [hafter, inherited?_none]
      · exact .inl (answer_insert_off_path hdistinct hbelow)

/-- On below `a`, but off below `a.b`. -/
def nested : RuleStore String :=
  (empty.insert ⟨["a"], true⟩ "on").insert ⟨["a", "b"], true⟩ "off"

theorem Reachable.put_changes_nested :
    nested.Reachable
      ∧ Pattern.parse "a.b" = .ok ⟨["a", "b"], false⟩
      ∧ (∃ next event, nested.put "a.b" "audit" = .ok (next, event)
        ∧ next.get "a.b" = .ok (some "audit")
        ∧ nested.get "a.b.c" = .ok (some "off") ∧ next.get "a.b.c" = .ok (some "on")
        ∧ next.get "a.c" = nested.get "a.c")
      ∧ Pattern.parse "a/b/*" = .ok ⟨["a", "b"], true⟩
      ∧ nested.isRedundant ⟨["a", "b"], true⟩ "on" = true
      ∧ ∃ next event, nested.put "a/b/*" "on" = .ok (next, event)
        ∧ next.get "a.b.c" = .ok (some "on") ∧ next.get "a.c" = nested.get "a.c" := by
  have hreach : nested.Reachable := by
    have houter : Pattern.parse "a.*" = .ok ⟨["a"], true⟩ := by rfl
    have hinner : Pattern.parse "a.b.*" = .ok ⟨["a", "b"], true⟩ := by rfl
    exact (Reachable.empty.insert "on" houter).insert "off" hinner
  have hplain : Pattern.parse "a.b" = .ok ⟨["a", "b"], false⟩ := by rfl
  have hstarred : Pattern.parse "a/b/*" = .ok ⟨["a", "b"], true⟩ := by rfl
  have hown : Pattern.name "a.b" = .ok ⟨["a", "b"], false⟩ := by rfl
  have hbelow : Pattern.name "a.b.c" = .ok ⟨["a", "b", "c"], false⟩ := by rfl
  have hbeside : Pattern.name "a.c" = .ok ⟨["a", "c"], false⟩ := by rfl
  refine ⟨hreach, hplain, ?_, hstarred, by rfl, ?_⟩
  · obtain ⟨next, event, hput, hchanges⟩ := hreach.put_changes hplain "audit"
    refine ⟨next, event, hput, ((hchanges _ _ hown).2 rfl).1 rfl, by rfl, ?_, ?_⟩
    · cases hput
      rfl
    · refine (((hchanges _ _ hbeside).2 rfl).2 (by decide)).resolve_right ?_
      intro hfell
      exact absurd hfell.1 (by decide)
  · obtain ⟨next, event, hput, hchanges⟩ := hreach.put_changes hstarred "on"
    refine ⟨next, event, hput, ((hchanges _ _ hbelow).1 rfl).1 (by decide), ?_⟩
    exact ((hchanges _ _ hbeside).1 rfl).2 (by decide)

end RuleStore

end LayeredLexer
