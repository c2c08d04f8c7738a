/-
The store that drops redundant rules against one that keeps them all. A
view serves as the second: it records every rule on the path of its
pattern, and answers like the store does. After the same calls, the two
answer every name alike as long as each rule that the store has dropped
is still what its path inherits in the store (`Covers`).

# When a dropped rule is missed

A rule is dropped because its path inherits the same rule already. What
the path inherits may change later, and nobody brings the dropped rule
back: `a.*` and then `a.b.*` with one rule keeps only `a.*`, a rule for
`a` alone then takes the place of `a.*`, and `a.b` has no rule any more.
Only a plain pattern does this (`Strands`), since a starred one
takes all rules below its path away, the dropped ones too.

# The invariant

`Within` holds after any calls: the store holds nothing that the view
does not, both hold the same on the empty path, which inherits nothing,
and the view's patterns are well formed. It makes `Covers` the
exact condition for equal answers: a dropped rule that is not inherited
is missed by the name of its own path.
-/
import LayeredLexer.Proofs.Rule.Lookup
import LayeredLexer.Proofs.Rule.Reachable

namespace LayeredLexer

variable {ρ : Type}

-- ============================================================== the view

namespace View

/-- The view that holds nothing. -/
def empty : View ρ := fun _ => none

/-- Records a rule. A starred pattern first removes every rule at or
below its path; a plain one replaces the rule on its path. -/
def record (view : View ρ) (pattern : Pattern) (rule : ρ) : View ρ := fun path =>
  if path = pattern.segments then some ⟨rule, !pattern.wildcard⟩
  else if pattern.wildcard ∧ pattern.segments <+: path then none
  else view path

/-- Records a rule under a pattern given as text. -/
def put (view : View ρ) (pattern : String) (rule : ρ) : Except PatternError (View ρ) :=
  (Pattern.parse pattern).map (view.record · rule)

/-- The rule for a name given as text. -/
def get (view : View ρ) (name : String) : Except PatternError (Option ρ) :=
  (Pattern.name name).map fun name => view.answer name.segments

theorem put_eq_ok_iff {view next : View ρ} {text : String} {rule : ρ} :
    view.put text rule = .ok next ↔ ∃ p, Pattern.parse text = .ok p ∧ view.record p rule = next := by
  unfold put
  cases Pattern.parse text with
  | error fault => simp [Except.map]
  | ok p => simp [Except.map]

/-- Where a view holds less than another, but what it lacks is inherited
in it, both inherit the same everywhere. -/
theorem inherited_eq {v w : View ρ} (hwithin : ∀ path slot, w path = some slot → v path = some slot)
    (hcovers : ∀ path slot, v path = some slot → w path = none →
      w.inherited path = some slot.rule)
    (path : List String) : w.inherited path = v.inherited path := by
  induction path using List.reverseRecOn with
  | nil => rfl
  | append_singleton path s ih =>
      unfold inherited at ih ⊢
      rw [above_snoc, above_snoc, ← ih, passed, passed]
      cases hw : w path with
      | some slot => rw [hwithin path slot hw]
      | none =>
          cases hv : v path with
          | none => rfl
          | some slot =>
              have habove : above w.passed path = some slot.rule := hcovers path slot hv hw
              rw [habove, Option.bind_none, Option.none_or, Option.bind_some, Slot.inherited?]
              split <;> rfl

/-- And so both answer alike. -/
theorem answer_congr {v w : View ρ} (hwithin : ∀ path slot, w path = some slot → v path = some slot)
    (hcovers : ∀ path slot, v path = some slot → w path = none →
      w.inherited path = some slot.rule)
    (path : List String) : w.answer path = v.answer path := by
  cases hw : w path with
  | some slot => rw [answer_of_some hw, answer_of_some (hwithin path slot hw)]
  | none =>
      rw [answer_of_none hw]
      cases hv : v path with
      | none => rw [answer_of_none hv, inherited_eq hwithin hcovers]
      | some slot => rw [answer_of_some hv, hcovers path slot hv hw]

end View

-- ============================================================ two stores

namespace RuleStore

/-- What every store keeps to, compared to the view after the same calls. -/
structure Within (store : RuleStore ρ) (view : View ρ) : Prop where
  wellFormed : store.WellFormed
  kept : ∀ path slot, store.slot? path = some slot → view path = some slot
  root : store.slot? [] = view []
  patterns : ∀ path slot, view path = some slot → (slot.pattern path).WellFormed

/-- Every rule that the store has dropped is what its path inherits. -/
def Covers (store : RuleStore ρ) (view : View ρ) : Prop :=
  ∀ path slot, view path = some slot → store.slot? path = none →
    store.inherited? none path = some slot.rule

theorem inherited?_none (store : RuleStore ρ) (path : List String) :
    store.inherited? none path = View.inherited store.slot? path := by
  rw [inherited?_eq, Option.or_none]

/-- A store answers like the view of what it holds. -/
theorem get_eq_view (store : RuleStore ρ) (text : String) :
    store.get text = View.get store.slot? text := by
  rw [get, View.get]
  cases hname : Pattern.name text with
  | error fault => rfl
  | ok name =>
      have hroot := Pattern.segments_ne_nil_of_name hname
      exact congrArg Except.ok (store.lookup_eq_answer hroot)

/-- What a store has dropped is no loss to its answers, if it covers it. -/
theorem Within.answer_eq {store : RuleStore ρ} {view : View ρ} (h : store.Within view)
    (hcovers : store.Covers view) (path : List String) :
    View.answer store.slot? path = view.answer path := by
  apply View.answer_congr h.kept
  intro path slot hview hdropped
  rw [← inherited?_none]
  exact hcovers path slot hview hdropped

/-- The exact condition for equal answers. -/
theorem Within.get_eq_iff {store : RuleStore ρ} {view : View ρ} (h : store.Within view) :
    (∀ text, store.get text = view.get text) ↔ store.Covers view := by
  constructor
  · intro hget path slot hview hdropped
    have hroot : path ≠ [] := by
      intro heq
      subst heq
      rw [h.root, hview] at hdropped
      cases hdropped
    -- the name of the path asks for the dropped rule itself
    have hname : Pattern.name (⟨path, false⟩ : Pattern).display = .ok ⟨path, false⟩ :=
      Pattern.name_display_plain (h.patterns path slot hview) hroot
    have hget := hget (⟨path, false⟩ : Pattern).display
    rw [get_eq_view, View.get, View.get, hname] at hget
    have hanswer : View.answer store.slot? path = view.answer path := Except.ok.inj hget
    rw [View.answer_of_none hdropped, View.answer_of_some hview] at hanswer
    rw [inherited?_none, hanswer]
  · intro hcovers text
    have hanswer : View.answer store.slot? = view.answer := funext (h.answer_eq hcovers)
    rw [get_eq_view, View.get, View.get, hanswer]

-- ================================================================= calls

theorem Within.empty : (RuleStore.empty : RuleStore ρ).Within View.empty where
  wellFormed := WellFormed.empty
  kept path slot h := by
    rw [slot?_empty] at h
    cases h
  root := rfl
  patterns _ _ h := nomatch h

theorem Covers.empty : (RuleStore.empty : RuleStore ρ).Covers View.empty :=
  fun _ _ h => nomatch h

variable [DecidableEq ρ] {store : RuleStore ρ} {view : View ρ} {p : Pattern} {rule : ρ}

/-- A rule on the empty path inherits nothing, so it is not redundant. -/
theorem isRedundant_root (h : p.segments = []) : store.isRedundant p rule = false := by
  rw [isRedundant, h]
  rfl

theorem Within.insert (h : store.Within view) (hp : p.WellFormed) (rule : ρ) :
    (store.insert p rule).Within (view.record p rule) where
  wellFormed := h.wellFormed.insert rule hp
  kept path slot hslot := by
    rw [slot?_insert h.wellFormed.distinct] at hslot
    unfold View.record
    split at hslot
    next hpath =>
      split at hslot
      · cases hslot
      · rw [if_pos hpath, ← hslot]
    next hpath =>
      rw [if_neg hpath]
      split at hslot
      · cases hslot
      next hkept =>
        rw [if_neg hkept]
        exact h.kept path slot hslot
  root := by
    rw [slot?_insert h.wellFormed.distinct, View.record]
    split
    next hpath => rw [isRedundant_root hpath.symm, if_neg Bool.false_ne_true]
    · split
      · rfl
      · exact h.root
  patterns path slot hslot := by
    unfold View.record at hslot
    split at hslot
    next hpath =>
      cases hslot
      rw [hpath]
      simpa [Slot.pattern] using hp
    · split at hslot
      · cases hslot
      · exact h.patterns path slot hslot

/-- Only what is strictly below a pattern may inherit another rule after
one was put there. -/
theorem inherited?_insert (h : store.Distinct) {path : List String}
    (habove : p.segments <+: path → path = p.segments) :
    (store.insert p rule).inherited? none path = store.inherited? none path := by
  rw [inherited?_none, inherited?_none]
  refine above_congr fun q hq hne => ?_
  have hnot : ¬ p.segments <+: q := by
    intro hunder
    have hpath := habove (hunder.trans hq)
    rw [hpath] at hq hne
    exact hne (hq.eq_of_length_le hunder.length_le)
  rw [View.passed, View.passed, slot?_insert_off_path h hnot]

/-- A plain pattern strands a rule that was dropped elsewhere: the path
of the dropped rule does not inherit the same as before. -/
def Strands (store : RuleStore ρ) (view : View ρ) (p : Pattern) (rule : ρ) : Prop :=
  p.wildcard = false ∧ ∃ path, path ≠ p.segments
    ∧ (view path).isSome ∧ store.slot? path = none
    ∧ (store.insert p rule).inherited? none path ≠ store.inherited? none path

/-- What was covered stays so exactly if nothing is stranded. -/
theorem Within.covers_insert_iff (h : store.Within view) (hcovers : store.Covers view) :
    (store.insert p rule).Covers (view.record p rule) ↔ ¬ store.Strands view p rule := by
  have hslots := slot?_insert h.wellFormed.distinct p rule
  constructor
  · rintro hafter ⟨hplain, path, hother, hheld, hdropped, hchanged⟩
    obtain ⟨slot, hslot⟩ := Option.isSome_iff_exists.1 hheld
    have hview : view.record p rule path = some slot := by
      rw [View.record, if_neg hother, hplain, if_neg fun hbelow => Bool.false_ne_true hbelow.1, hslot]
    have hstore : (store.insert p rule).slot? path = none := by
      rw [slot?_insert_plain h.wellFormed.distinct hplain hother, hdropped]
    rw [hafter path slot hview hstore, hcovers path slot hslot hdropped] at hchanged
    exact hchanged rfl
  · intro hnot path slot hview hstore
    rw [hslots] at hstore
    unfold View.record at hview
    by_cases hpath : path = p.segments
    · -- the new rule itself was dropped
      rw [if_pos hpath] at hview hstore
      cases hview
      split at hstore
      next hredundant =>
        rw [inherited?_insert h.wellFormed.distinct fun _ => hpath, hpath]
        exact eq_of_beq hredundant
      · cases hstore
    · rw [if_neg hpath] at hview hstore
      split at hview
      · cases hview
      next hkept =>
        rw [if_neg hkept] at hstore
        rw [← hcovers path slot hview hstore]
        -- a starred pattern changes nothing for the paths that it leaves
        by_contra hchanged
        cases hstar : p.wildcard with
        | true =>
            refine hchanged (inherited?_insert h.wellFormed.distinct fun hbelow => ?_)
            exact absurd ⟨hstar, hbelow⟩ hkept
        | false =>
            refine hnot ⟨hstar, path, hpath, ?_, hstore, hchanged⟩
            rw [hview]
            rfl

-- ================================================================== runs

/-- A store and a view that the same calls have built, from nothing; on a
quiet run no call has stranded a rule that was dropped before. -/
inductive Abreast : (quiet : Bool) → RuleStore ρ → View ρ → Prop
  | start : Abreast true empty View.empty
  | put {quiet : Bool} {store next : RuleStore ρ} {view nextView : View ρ} {text : String}
      {p : Pattern} {rule : ρ} {event : Log.Event} (h : Abreast quiet store view)
      (hput : store.put text rule = .ok (next, event)) (hrecord : view.put text rule = .ok nextView)
      (hparse : Pattern.parse text = .ok p) (hnot : ¬ store.Strands view p rule) :
      Abreast quiet next nextView
  | strand {quiet : Bool} {store next : RuleStore ρ} {view nextView : View ρ} {text : String}
      {p : Pattern} {rule : ρ} {event : Log.Event} (h : Abreast quiet store view)
      (hput : store.put text rule = .ok (next, event)) (hrecord : view.put text rule = .ok nextView)
      (hparse : Pattern.parse text = .ok p) (hstrands : store.Strands view p rule) :
      Abreast false next nextView

/-- What a call makes of the two, once its text is read. -/
theorem put_eq_insert {next : RuleStore ρ} {nextView : View ρ} {text : String} {event : Log.Event}
    (hput : store.put text rule = .ok (next, event)) (hrecord : view.put text rule = .ok nextView)
    (hparse : Pattern.parse text = .ok p) :
    next = store.insert p rule ∧ nextView = view.record p rule := by
  obtain ⟨q, hq, rfl, -⟩ := put_eq_ok_iff.1 hput
  obtain ⟨q', hq', rfl⟩ := View.put_eq_ok_iff.1 hrecord
  rw [hparse] at hq hq'
  cases hq
  cases hq'
  exact ⟨rfl, rfl⟩

theorem Abreast.insert {quiet : Bool} (h : Abreast quiet store view) {text : String}
    (hparse : Pattern.parse text = .ok p) (hnot : ¬ store.Strands view p rule) :
    Abreast quiet (store.insert p rule) (view.record p rule) :=
  h.put (put_eq_ok_iff.2 ⟨p, hparse, rfl, rfl⟩) (View.put_eq_ok_iff.2 ⟨p, hparse, rfl⟩) hparse hnot

theorem Within.put (h : store.Within view) {next : RuleStore ρ} {nextView : View ρ} {text : String}
    {event : Log.Event} (hput : store.put text rule = .ok (next, event))
    (hrecord : view.put text rule = .ok nextView) (hparse : Pattern.parse text = .ok p) :
    next.Within nextView := by
  obtain ⟨rfl, rfl⟩ := put_eq_insert hput hrecord hparse
  exact h.insert (Pattern.wellFormed_of_parse hparse) rule

theorem Abreast.within {quiet : Bool} (h : Abreast quiet store view) : store.Within view := by
  induction h with
  | start => exact Within.empty
  | put _ hput hrecord hparse _ ih => exact ih.put hput hrecord hparse
  | strand _ hput hrecord hparse _ ih => exact ih.put hput hrecord hparse

theorem Abreast.covers (h : Abreast true store view) : store.Covers view := by
  generalize hquiet : true = quiet at h
  induction h with
  | start => exact Covers.empty
  | put hrun hput hrecord hparse hnot ih =>
      obtain ⟨rfl, rfl⟩ := put_eq_insert hput hrecord hparse
      exact (hrun.within.covers_insert_iff (ih hquiet)).2 hnot
  | strand => cases hquiet

/-- After any calls the store answers every name like the view that keeps
all rules exactly if it covers the rules that it has dropped. On a quiet
run it does, and the next call then keeps it so exactly if it strands
nothing. -/
theorem Abreast.unobservable_iff {quiet : Bool} (h : Abreast quiet store view) :
    ((∀ text, store.get text = view.get text) ↔ store.Covers view)
      ∧ (quiet = true → ∀ text, store.get text = view.get text)
      ∧ ∀ text p rule, Pattern.parse text = .ok p → (∀ text, store.get text = view.get text) →
          ((∀ text, (store.insert p rule).get text = (view.record p rule).get text)
            ↔ ¬ store.Strands view p rule) := by
  refine ⟨h.within.get_eq_iff, ?_, ?_⟩
  · intro heq
    subst heq
    exact h.within.get_eq_iff.2 h.covers
  · intro text p rule hparse hget
    have hwithin := h.within.insert (Pattern.wellFormed_of_parse hparse) rule
    rw [hwithin.get_eq_iff]
    exact h.within.covers_insert_iff (h.within.get_eq_iff.1 hget)

/-- The store that keeps only `a.*`, and the view that keeps `a.b.*` too. -/
def droppedBelow : RuleStore String :=
  (empty.insert ⟨["a"], true⟩ "on").insert ⟨["a", "b"], true⟩ "on"

def keptBelow : View String :=
  (View.empty.record ⟨["a"], true⟩ "on").record ⟨["a", "b"], true⟩ "on"

theorem Abreast.unobservable_iff_dropped_below :
    Abreast true droppedBelow keptBelow
      ∧ droppedBelow.slot? ["a", "b"] = none ∧ keptBelow ["a", "b"] = some ⟨"on", false⟩
      ∧ (∀ text, droppedBelow.get text = keptBelow.get text)
      ∧ ¬ ∀ text, (droppedBelow.insert ⟨["a"], false⟩ "off").get text
          = (keptBelow.record ⟨["a"], false⟩ "off").get text := by
  have hrun : Abreast true droppedBelow keptBelow := by
    have houter : Pattern.parse "a.*" = .ok ⟨["a"], true⟩ := by rfl
    have hinner : Pattern.parse "a.b.*" = .ok ⟨["a", "b"], true⟩ := by rfl
    have hstarred : ∀ (store : RuleStore String) (view : View String) (path : List String),
        ¬ store.Strands view ⟨path, true⟩ "on" := fun _ _ _ hstrands => Bool.noConfusion hstrands.1
    exact (Abreast.start.insert houter (hstarred _ _ _)).insert hinner (hstarred _ _ _)
  have hstrands : droppedBelow.Strands keptBelow ⟨["a"], false⟩ "off" := by
    refine ⟨rfl, ["a", "b"], by decide, by decide, by decide +kernel, ?_⟩
    decide +kernel
  have hparse : Pattern.parse "a" = .ok ⟨["a"], false⟩ := by rfl
  obtain ⟨-, hquiet, hnext⟩ := hrun.unobservable_iff
  have hget := hquiet rfl
  refine ⟨hrun, by decide +kernel, by decide +kernel, hget, fun hafter => ?_⟩
  exact (hnext "a" _ "off" hparse hget).1 hafter hstrands

/-- The next call strands the rule of `a.b`. -/
theorem dropped_rule_missed :
    (do let (store, _) ← (empty : RuleStore String).put "a.*" "on"
        let (store, _) ← store.put "a.b.*" "on"
        let (store, _) ← store.put "a" "off"
        store.get "a.b") = .ok none
      ∧ (do let view ← (View.empty : View String).put "a.*" "on"
            let view ← view.put "a.b.*" "on"
            let view ← view.put "a" "off"
            view.get "a.b") = .ok (some "on") :=
  ⟨by rfl, by rfl⟩

end RuleStore

end LayeredLexer
