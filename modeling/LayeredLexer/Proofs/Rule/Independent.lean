/-
Puts that do not depend on each other. Under patterns of which neither is
above the other, rules may be put in either order, and a rule that is put
again is already there. The stores that come out cannot be told apart by
any request (`Alike`).

# From requests to what is held

A store that calls have built answers every request from what it holds on
each path: its entries, its answers and, since no branch is dead, even the
questions about nodes. So two such stores are alike if they hold the same
(`Reachable.alike`), however they came to it.

# Why the order is lost

Whether a rule is redundant is the one thing that a put reads off the
store, and it reads it strictly above the path of its pattern. A put
changes nothing there, unless its own pattern is strictly above
(`isRedundant_insert`). So of two independent puts neither one changes
what the other does, and the same goes for a put and its repetition.
-/
import LayeredLexer.Proofs.Rule.DeadBranches
import LayeredLexer.Proofs.Rule.Dropping

namespace LayeredLexer

variable {ρ : Type}

namespace RuleStore

-- ================================================================== alike

/-- Stores that no request tells apart. -/
structure Alike (store other : RuleStore ρ) : Prop where
  entries : store.entries = other.entries
  get : ∀ name, store.get name = other.get name
  containsNode : ∀ p, store.containsNode p = other.containsNode p
  isOverridden : ∀ p, store.isOverridden p = other.isOverridden p

variable [DecidableEq ρ] {store other : RuleStore ρ} {p q : Pattern} {rule rule' : ρ}

/-- Of the stores that calls can build, those that hold the same are
alike. -/
theorem Reachable.alike (h : store.Reachable) (hother : other.Reachable)
    (hsame : store.slot? = other.slot?) : store.Alike other := by
  have hentries : store.entries = other.entries :=
    entries_congr h.wellFormed hother.wellFormed hsame
  refine ⟨hentries, fun name => ?_, fun p => ?_, fun p => ?_⟩
  · rw [get_eq_view, get_eq_view, hsame]
  · rw [Bool.eq_iff_iff, h.wellFormed.containsNode_iff h.alive,
      hother.wellFormed.containsNode_iff hother.alive, hentries]
  · rw [Bool.eq_iff_iff, h.wellFormed.isOverridden_iff h.alive,
      hother.wellFormed.isOverridden_iff hother.alive, hentries]

-- =============================================================== two puts

/-- A put leaves it as it was whether a rule is redundant, unless its own
pattern is strictly above. -/
theorem isRedundant_insert (h : store.Distinct)
    (hnot : p.segments <+: q.segments → q.segments = p.segments) :
    (store.insert p rule).isRedundant q rule' = store.isRedundant q rule' := by
  rw [isRedundant, isRedundant, inherited?_insert h hnot]

/-- Independent puts leave the same on every path, in either order. -/
theorem slot?_insert_comm (h : store.Distinct) (hpq : ¬ p.segments <+: q.segments)
    (hqp : ¬ q.segments <+: p.segments) (rule rule' : ρ) :
    ((store.insert p rule).insert q rule').slot?
      = ((store.insert q rule').insert p rule).slot? := by
  funext path
  rw [slot?_insert (h.insert p rule), slot?_insert (h.insert q rule'), slot?_insert h,
    slot?_insert h, isRedundant_insert h fun habove => absurd habove hpq,
    isRedundant_insert h fun habove => absurd habove hqp]
  by_cases hp : path = p.segments
  · -- the other pattern is neither on this path nor above it
    have hnot : ¬ (q.wildcard ∧ q.segments <+: path) := fun hbelow => hqp (hp ▸ hbelow.2)
    have hq : path ≠ q.segments := fun heq => hqp (hp ▸ heq ▸ List.prefix_rfl)
    rw [if_neg hq, if_neg hnot, if_pos hp, if_pos hp]
  · rw [if_neg hp, if_neg hp]
    by_cases hq : path = q.segments
    · have hnot : ¬ (p.wildcard ∧ p.segments <+: path) := fun hbelow => hpq (hq ▸ hbelow.2)
      rw [if_pos hq, if_neg hnot, if_pos hq]
    · -- elsewhere either one empties the path or leaves it alone
      rw [if_neg hq, if_neg hq]
      split
      · split <;> rfl
      · rfl

/-- A put that is repeated leaves what it has left before. -/
theorem slot?_insert_insert (h : store.Distinct) (p : Pattern) (rule : ρ) :
    ((store.insert p rule).insert p rule).slot? = (store.insert p rule).slot? := by
  funext path
  rw [slot?_insert (h.insert p rule), isRedundant_insert h fun _ => rfl]
  rw [slot?_insert h]
  by_cases hp : path = p.segments
  · rw [if_pos hp, if_pos hp]
  · rw [if_neg hp, if_neg hp]
    split <;> rfl

-- =============================================================== requests

/-- Puts rules under patterns given as texts, one after the other. -/
def puts (store : RuleStore ρ) : List (String × ρ) → Except PatternError (RuleStore ρ)
  | [] => .ok store
  | (text, rule) :: later => (store.put text rule).bind fun (next, _) => next.puts later

theorem puts_nil : store.puts [] = .ok store := rfl

theorem puts_cons {text : String} (hparse : Pattern.parse text = .ok p)
    (later : List (String × ρ)) :
    store.puts ((text, rule) :: later) = (store.insert p rule).puts later := by
  rw [puts, put, hparse]
  rfl

/-- Rules that are put under patterns of which neither is above the other
may be put in either order, and a rule that is put twice might as well be
put once: no request tells the stores apart. -/
theorem Reachable.puts_alike (h : store.Reachable) {text text' : String}
    (hp : Pattern.parse text = .ok p) (hq : Pattern.parse text' = .ok q) (rule rule' : ρ) :
    (¬ p.segments <+: q.segments → ¬ q.segments <+: p.segments →
      ∃ one another, store.puts [(text, rule), (text', rule')] = .ok one
        ∧ store.puts [(text', rule'), (text, rule)] = .ok another ∧ one.Alike another)
      ∧ ∃ once twice, store.puts [(text, rule)] = .ok once
        ∧ store.puts [(text, rule), (text, rule)] = .ok twice ∧ twice.Alike once := by
  have hdistinct := h.wellFormed.distinct
  have honce := h.insert rule hp
  constructor
  · intro hpq hqp
    refine ⟨(store.insert p rule).insert q rule', (store.insert q rule').insert p rule, ?_, ?_, ?_⟩
    · rw [puts_cons hp, puts_cons hq, puts_nil]
    · rw [puts_cons hq, puts_cons hp, puts_nil]
    · apply (honce.insert rule' hq).alike ((h.insert rule' hq).insert rule hp)
      exact slot?_insert_comm hdistinct hpq hqp rule rule'
  · refine ⟨store.insert p rule, (store.insert p rule).insert p rule, ?_, ?_, ?_⟩
    · rw [puts_cons hp, puts_nil]
    · rw [puts_cons hp, puts_cons hp, puts_nil]
    · exact (honce.insert rule hp).alike honce (slot?_insert_insert hdistinct p rule)

/-- On below `a`, off for `a.d.e`, the one rule on the branch of `a.d`. -/
def forked : RuleStore String :=
  (empty.insert ⟨["a"], true⟩ "on").insert ⟨["a", "d", "e"], false⟩ "off"

/-- Setting `a.d.e` back to what it inherits cuts off the branch that a
rule for `a.d.f` is put on. -/
theorem Reachable.puts_alike_forked :
    forked.Reachable
      ∧ Pattern.parse "a.d.e" = .ok ⟨["a", "d", "e"], false⟩
      ∧ Pattern.parse "a.d.f" = .ok ⟨["a", "d", "f"], false⟩
      ∧ (forked.insert ⟨["a", "d", "e"], false⟩ "on").containsNode ⟨["a", "d"], false⟩ = false
      ∧ (∃ one another, forked.puts [("a.d.e", "on"), ("a.d.f", "off")] = .ok one
        ∧ forked.puts [("a.d.f", "off"), ("a.d.e", "on")] = .ok another ∧ one.Alike another)
      ∧ ∃ once twice, forked.puts [("a.d.e", "on")] = .ok once
        ∧ forked.puts [("a.d.e", "on"), ("a.d.e", "on")] = .ok twice ∧ twice.Alike once := by
  have hcut : Pattern.parse "a.d.e" = .ok ⟨["a", "d", "e"], false⟩ := by rfl
  have hput : Pattern.parse "a.d.f" = .ok ⟨["a", "d", "f"], false⟩ := by rfl
  have hreach : forked.Reachable := by
    have houter : Pattern.parse "a.*" = .ok ⟨["a"], true⟩ := by rfl
    exact (Reachable.empty.insert "on" houter).insert "off" hcut
  obtain ⟨hcommute, hagain⟩ := hreach.puts_alike hcut hput "on" "off"
  exact ⟨hreach, hcut, hput, by rfl, hcommute (by decide) (by decide), hagain⟩

end RuleStore

end LayeredLexer
