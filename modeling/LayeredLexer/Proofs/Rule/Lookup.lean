/-
The walk of a lookup as a formula over what the store holds on each path
(`View`). A name gets the rule on its own path, and else the one of the
longest path above it that passes a rule on (`View.answer`); the walk
from the root carries the best rule so far, and that accumulator is what
the induction generalizes over (`lookupFrom_cons`).

# Above a path

`above` is the same search for any values on paths. It can be read from
both ends: a walk goes down from the root, so the definition peels the
first segment off; a new last segment adds one more path to look at
(`above_snoc`), and that is the direction in which two views are compared.
-/
import Mathlib.Data.List.Induction
import Mathlib.Data.List.Infix
import LayeredLexer.Proofs.Rule.Slots

namespace LayeredLexer

-- ========================================================== above a path

section Above

variable {α : Type}

/-- The value on the longest path strictly above a path that has one. -/
def above (values : List String → Option α) : List String → Option α
  | [] => none
  | s :: path => (above (fun q => values (s :: q)) path).or (values [])

theorem above_snoc (values : List String → Option α) (path : List String) (s : String) :
    above values (path ++ [s]) = (values path).or (above values path) := by
  induction path generalizing values with
  | nil => simp [above]
  | cons t path ih => rw [List.cons_append, above, ih, Option.or_assoc, above]

/-- Only the paths strictly above count. -/
theorem above_congr {v w : List String → Option α} {path : List String}
    (h : ∀ q, q <+: path → q ≠ path → v q = w q) : above v path = above w path := by
  induction path generalizing v w with
  | nil => rfl
  | cons s path ih =>
      have hroot : v [] = w [] := h [] List.nil_prefix (List.cons_ne_nil s path).symm
      have hrest : above (fun q => v (s :: q)) path = above (fun q => w (s :: q)) path := by
        refine ih fun q hq hne => h (s :: q) ?_ ?_
        · exact List.cons_prefix_cons.2 ⟨rfl, hq⟩
        · exact fun heq => hne (List.cons.inj heq).2
      rw [above, above, hroot, hrest]

/-- The value on the longest path at or above a path, longest first. -/
theorem findSome?_inits (values : List String → Option α) (path : List String) :
    path.inits.reverse.findSome? values = (values path).or (above values path) := by
  induction path generalizing values with
  | nil => simp [above]
  | cons s path ih =>
      have hinner := ih (fun q => values (s :: q))
      rw [List.inits_cons, List.reverse_cons, List.findSome?_append, ← List.map_reverse,
        List.findSome?_map]
      rw [show values ∘ List.cons s = fun q => values (s :: q) from rfl, hinner, above,
        Option.or_assoc, List.findSome?_singleton]

/-- What is found there is on a prefix of the path, and every other
prefix with a value is a prefix of that one. -/
theorem findSome?_inits_eq_some_iff {values : List String → Option α} {path : List String} {a : α} :
    path.inits.reverse.findSome? values = some a
      ↔ ∃ q, q <+: path ∧ values q = some a
          ∧ ∀ q', q' <+: path → values q' ≠ none → q' <+: q := by
  rw [findSome?_inits]
  induction path using List.reverseRecOn with
  | nil => simp [above]
  | append_singleton path s ih =>
      rw [above_snoc]
      cases hlast : values (path ++ [s]) with
      | some b =>
          simp only [Option.some_or, Option.some.injEq]
          constructor
          · intro heq
            subst heq
            exact ⟨path ++ [s], List.prefix_rfl, hlast, fun q' hq' _ => hq'⟩
          · intro hfound
            obtain ⟨q, hq, hvalue, hlongest⟩ := hfound
            have hwhole := hlongest (path ++ [s]) List.prefix_rfl (by simp [hlast])
            have heq : q = path ++ [s] := hq.eq_of_length_le hwhole.length_le
            rw [heq, hlast] at hvalue
            exact Option.some.inj hvalue
      | none =>
          rw [Option.none_or, ih]
          -- no value on the whole path, so the prefixes that count are those of `path`
          have hshort : ∀ q, values q ≠ none → (q <+: path ++ [s] ↔ q <+: path) := by
            intro q hq
            rw [List.prefix_concat_iff]
            constructor
            · intro hshorter
              rcases hshorter with rfl | h
              · exact absurd hlast hq
              · exact h
            · exact .inr
          constructor
          · intro hfound
            obtain ⟨q, hq, hvalue, hlongest⟩ := hfound
            refine ⟨q, hq.trans (List.prefix_append _ _), hvalue, fun q' hq' hne => ?_⟩
            exact hlongest q' ((hshort q' hne).1 hq') hne
          · intro hfound
            obtain ⟨q, hq, hvalue, hlongest⟩ := hfound
            refine ⟨q, (hshort q (by simp [hvalue])).1 hq, hvalue, fun q' hq' hne => ?_⟩
            exact hlongest q' ((hshort q' hne).2 hq') hne

theorem findSome?_inits_eq_none_iff {values : List String → Option α} {path : List String} :
    path.inits.reverse.findSome? values = none ↔ ∀ q, q <+: path → values q = none := by
  rw [List.findSome?_eq_none_iff]
  simp only [List.mem_reverse, List.mem_inits]

end Above

-- ================================================================= views

variable {ρ : Type}

/-- What is held on each path. -/
abbrev View (ρ : Type) := List String → Option (Slot ρ)

namespace View

/-- The rule for the name on a path alone. -/
def own (view : View ρ) (path : List String) : Option ρ :=
  (view path).bind fun slot => if slot.exact then some slot.rule else none

/-- The rule that a path passes on to the paths below it. -/
def passed (view : View ρ) (path : List String) : Option ρ := (view path).bind Slot.inherited?

/-- The rule that a path inherits. -/
def inherited (view : View ρ) (path : List String) : Option ρ := above view.passed path

/-- The rule for the name on a path: its own, or else the one that the
longest path at or above it passes on. -/
def answer (view : View ρ) (path : List String) : Option ρ :=
  (view.own path).or (path.inits.reverse.findSome? view.passed)

variable {view : View ρ} {path : List String}

/-- Any rule that is held on the path itself comes first. -/
theorem answer_eq (view : View ρ) (path : List String) :
    view.answer path = ((view path).map (·.rule)).or (view.inherited path) := by
  rw [answer, findSome?_inits, inherited, own, passed]
  cases view path with
  | none => rfl
  | some slot =>
      obtain ⟨rule, exact⟩ := slot
      cases exact <;> rfl

theorem answer_of_some {slot : Slot ρ} (h : view path = some slot) :
    view.answer path = some slot.rule := by
  rw [answer_eq, h]
  rfl

theorem answer_of_none (h : view path = none) : view.answer path = view.inherited path := by
  rw [answer_eq, h]
  rfl

theorem own_eq_some_iff {rule : ρ} : view.own path = some rule ↔ view path = some ⟨rule, true⟩ := by
  unfold own
  cases view path with
  | none => simp
  | some slot =>
      obtain ⟨held, exact⟩ := slot
      cases exact <;> simp

theorem passed_eq_some_iff {rule : ρ} :
    view.passed path = some rule ↔ view path = some ⟨rule, false⟩ := by
  unfold passed
  cases view path with
  | none => simp
  | some slot =>
      obtain ⟨held, exact⟩ := slot
      cases exact <;> simp [Slot.inherited?]

/-- What a view says about the name on a path, case by case. -/
inductive Says (view : View ρ) (path : List String) : Option ρ → Prop
  | own {rule : ρ} (own : view.own path = some rule) : Says view path (some rule)
  | longest {source : List String} {rule : ρ} (notOwn : view.own path = none)
      (covers : source <+: path) (passed : view.passed source = some rule)
      (longest : ∀ source' rule', source' <+: path → view.passed source' = some rule' →
        source'.length ≤ source.length) : Says view path (some rule)
  | none (notOwn : view.own path = none)
      (uncovered : ∀ source rule, source <+: path → view.passed source ≠ some rule) :
      Says view path none

/-- It says what it answers, and nothing else. -/
theorem says_iff {answer : Option ρ} : view.Says path answer ↔ answer = view.answer path := by
  rw [View.answer]
  constructor
  · intro hsays
    cases hsays with
    | own own => rw [own, Option.some_or]
    | longest notOwn covers passed longest =>
        rw [notOwn, Option.none_or]
        refine (findSome?_inits_eq_some_iff.2 ⟨_, covers, passed, ?_⟩).symm
        intro source' covers' hne
        obtain ⟨rule', hrule'⟩ := Option.ne_none_iff_exists'.1 hne
        exact List.prefix_of_prefix_length_le covers' covers (longest source' rule' covers' hrule')
    | none notOwn uncovered =>
        rw [notOwn, Option.none_or]
        refine (findSome?_inits_eq_none_iff.2 fun source covers => ?_).symm
        exact Option.eq_none_iff_forall_ne_some.2 fun rule => uncovered source rule covers
  · intro heq
    subst heq
    cases hown : view.own path with
    | some rule => exact .own hown
    | none =>
        rw [Option.none_or]
        cases hfound : path.inits.reverse.findSome? view.passed with
        | some rule =>
            obtain ⟨source, covers, hrule, hlongest⟩ := findSome?_inits_eq_some_iff.1 hfound
            refine .longest hown covers hrule fun source' rule' covers' hrule' => ?_
            refine (hlongest source' covers' ?_).length_le
            rw [hrule']
            exact Option.some_ne_none rule'
        | none =>
            refine .none hown fun source rule covers hrule => ?_
            rw [findSome?_inits_eq_none_iff.1 hfound source covers] at hrule
            cases hrule

end View

-- ================================================================= walks

namespace RuleStore

/-- What is passed on below a segment is what the child passes on. -/
theorem passed_cons (store : RuleStore ρ) (s : String) :
    (fun q => View.passed store.slot? (s :: q))
      = View.passed ((store.below.find? s).getD empty).slot? := by
  funext q
  rw [View.passed, slot?_cons_eq_getD]
  rfl

theorem inherited_empty (path : List String) :
    View.inherited (empty : RuleStore ρ).slot? path = none := by
  induction path using List.reverseRecOn with
  | nil => rfl
  | append_singleton path s ih =>
      unfold View.inherited at ih ⊢
      rw [above_snoc, ih, View.passed, slot?_empty]
      rfl

/-- The search for what a path inherits, from any best rule so far. -/
theorem inherited?_eq (best : Option ρ) (path : List String) (store : RuleStore ρ) :
    store.inherited? best path = (View.inherited store.slot? path).or best := by
  unfold View.inherited
  induction path generalizing best store with
  | nil => rfl
  | cons s path ih =>
      rw [inherited?, above, passed_cons]
      cases store.below.find? s with
      | none =>
          show store.inheritedHere?.or best = _
          rw [Option.getD_none, show above _ path = none from inherited_empty path]
          rfl
      | some child =>
          show child.inherited? (store.inheritedHere?.or best) path = _
          rw [ih, Option.or_assoc]
          rfl

/-- The walk to a name below the root. Where the node that it enters
holds a rule for its name alone, only the end of the walk takes it. -/
theorem lookupFrom_cons (best : Option ρ) (s : String) (path : List String) (store : RuleStore ρ) :
    store.lookupFrom best (s :: path)
      = ((store.slot? (s :: path)).map (·.rule)).or
          ((above (fun q => View.passed store.slot? (s :: q)) path).or best) := by
  induction path generalizing best s store with
  | nil =>
      rw [lookupFrom, slot?_cons]
      cases store.below.find? s with
      | none => rfl
      | some child =>
          obtain ⟨slot, below⟩ := child
          cases slot with
          | none => rfl
          | some slot => simp [lookupFrom, above, slot?_nil]
  | cons t path ih =>
      rw [lookupFrom, slot?_cons_eq_getD, passed_cons]
      cases store.below.find? s with
      | none =>
          have hnone : above (View.passed (empty : RuleStore ρ).slot?) (t :: path) = none :=
            inherited_empty (t :: path)
          simp [slot?_empty, hnone]
      | some child =>
          -- whatever the child holds, the walk goes on with what it passes on
          have hbest : ∀ best', child.inheritedHere?.or best = best' →
              child.lookupFrom best' (t :: path)
                = ((child.slot? (t :: path)).map (·.rule)).or
                    ((above (View.passed child.slot?) (t :: path)).or best) := by
            rintro _ rfl
            rw [ih, above, Option.or_assoc]
            rfl
          dsimp only
          split
          next slot hslot =>
            split
            next hcounts =>
              have hpasses : slot.exact = false := by simpa using hcounts
              refine hbest _ ?_
              simp [inheritedHere?, hslot, Slot.inherited?, hpasses]
            next hsilent =>
              have hstays : slot.exact = true := by simpa using hsilent
              refine hbest _ ?_
              simp [inheritedHere?, hslot, Slot.inherited?, hstays]
          next hslot =>
            refine hbest _ ?_
            simp [inheritedHere?, hslot]

/-- A lookup answers from what is held on the path of the name and above
it. No name has the empty path. -/
theorem lookup_eq_answer (store : RuleStore ρ) {name : Pattern} (h : name.segments ≠ []) :
    store.lookup name = View.answer store.slot? name.segments := by
  obtain ⟨s, path, hpath⟩ := List.exists_cons_of_ne_nil h
  rw [lookup, hpath, lookupFrom_cons, View.answer_eq]
  rfl

end RuleStore

end LayeredLexer
