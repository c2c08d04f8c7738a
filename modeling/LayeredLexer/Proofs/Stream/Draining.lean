/-
Draining a stack ends, and how soon. Over a source that gives `n` characters
before its end or its first failure a tokenizer has at most `n` tokens to
deliver, since each one takes a character, and a check of the nesting has
at most one error for each of them: a token is at fault, or it opens a
delimiter that can be found unclosed, or neither. So a stack with `b` checks
has `(1 + b) * n` items to deliver, and then a failure at most.

# The account

The characters that are ahead pay for the tokens (`charactersAhead`,
`pays_charactersAhead`). What is due from a stack on that account is what
the bounds of `Stream.Drain` make of it, so every item lowers it, and for
fresh layers it is the product above (`itemsDue_stack`). The characters of
a source are those that it gives; an account in terms of its size would
count the bytes behind a failure as well.
-/
import LayeredLexer.Proofs.Lexer.CutShort
import LayeredLexer.Proofs.Scan.Answers
import LayeredLexer.Proofs.Stream.Layers

namespace LayeredLexer

-- ============================================================= the account

/-- A source gives one list of characters only. -/
theorem CharSource.Gives.unique {source : CharSource} {cs ds : List Char}
    {failure other : Option SourceError} (h : source.Gives cs failure)
    (h' : source.Gives ds other) : cs = ds := by
  induction cs generalizing source ds with
  | nil =>
      cases ds with
      | nil => rfl
      | cons d ds => cases failure <;> cases h.symm.trans h'.1
  | cons c cs ih =>
      cases ds with
      | nil => cases other <;> cases h.1.symm.trans h'
      | cons d ds =>
          cases h.1.symm.trans h'.1
          rw [ih h.2 h'.2]

namespace Tokenizer

/-- The number of characters that a tokenizer has not lexed yet. -/
def unlexed (t : Tokenizer) : Nat :=
  match t.deferred with
  | some _ => 0
  | none => t.source.drain.1.length

/-- A bound on the tokens that a tokenizer still has to deliver: one that it
holds, and one for each character that is not lexed yet. -/
def charactersAhead (t : Tokenizer) : Nat :=
  match t.front with
  | .unread => t.unlexed
  | .held _ => t.unlexed + 1
  | .ended | .failed _ => 0

variable {t : Tokenizer} {cs : List Char} {failure : Option SourceError}

theorem exists_ahead (t : Tokenizer) : ∃ cs failure, t.Ahead cs failure := by
  unfold Ahead
  cases t.deferred with
  | none => exact ⟨_, _, t.source.gives_drain⟩
  | some cause => exact ⟨[], some cause, rfl, rfl⟩

theorem Ahead.unlexed_eq (h : t.Ahead cs failure) : t.unlexed = cs.length := by
  unfold Ahead at h
  unfold unlexed
  cases hdeferred : t.deferred with
  | none =>
      rw [hdeferred] at h
      rw [h.unique t.source.gives_drain, String.length_toList]
  | some cause =>
      rw [hdeferred] at h
      rw [h.1]
      rfl

/-- A lex step turns characters into one token, or into none at all. -/
theorem charactersAhead_advance_le (t : Tokenizer) : t.advance.charactersAhead ≤ t.unlexed := by
  obtain ⟨cs, failure, hahead⟩ := t.exists_ahead
  rw [hahead.unlexed_eq]
  by_cases hcs : cs = []
  · subst hcs
    rw [charactersAhead, front_advance_nil hahead]
    cases failure <;> simp [behind]
  · cases hread : (Phase.fresh.span cs).lexeme.answer t.offset with
    | ok token =>
        obtain ⟨hheld, -, hleft⟩ := advance_token hahead hcs hread
        have hless := Phase.length_left_lt hcs
        rw [charactersAhead, hheld]
        dsimp only
        rw [hleft.unlexed_eq]
        omega
    | error error =>
        have hlook := advance_open hahead hcs hread
        unfold look at hlook
        unfold charactersAhead
        split at hlook <;> simp_all

/-- The characters ahead pay for the tokens. -/
theorem pays_charactersAhead : Pays charactersAhead where
  peek t := by
    unfold peek
    split
    next hfront =>
      have hless := t.charactersAhead_advance_le
      rw [charactersAhead.eq_def t, hfront]
      exact hless
    next => exact Nat.le_refl _
  drop t token hlook := by
    have hfront : t.front = .held token := by
      unfold look at hlook
      split at hlook <;> simp_all
    simp [charactersAhead, drop, hfront, unlexed]

end Tokenizer

namespace Stream

open Tokenizer (charactersAhead)

variable {source : CharSource}

/-- Fresh layers hold no tokens. -/
theorem tokensDue_stack (w : Tokenizer → Nat) (layers : List Layer) (source : CharSource) :
    (stack layers source).tokensDue w = w (.ofSource source) := by
  refine stack_keeps (P := fun s => s.tokensDue w = w (.ofSource source)) rfl
    (fun layer s hdue => ?_) layers
  cases layer <;> simp [wrap, tokensDue, heldWeight, hdue]

/-- A check that is put around a stack adds an error for each token. -/
theorem itemsDue_stack (w : Tokenizer → Nat) (layers : List Layer) (source : CharSource) :
    (stack layers source).itemsDue w = (1 + layers.count .balance) * w (.ofSource source) := by
  induction layers using List.reverseRecOn with
  | nil => simp [stack, ofSource, itemsDue]
  | append_singleton layers layer ih =>
      have htokens := tokensDue_stack w layers source
      rw [stack_append]
      cases layer with
      | lines | buffer =>
          simp [wrap, itemsDue, heldWeight, ih, List.count_append]
      | balance =>
          have hdue : (wrap .balance (stack layers source)).itemsDue w
              = (1 + layers.count .balance) * w (.ofSource source) + w (.ofSource source) := by
            simp [wrap, itemsDue, tokensDue, heldWeight, ih, htokens]
          rw [hdue, List.count_append, List.count_singleton_self, ← Nat.add_assoc, Nat.succ_mul]

theorem charactersAhead_ofSource (source : CharSource) :
    charactersAhead (.ofSource source) = source.drain.1.length := rfl

end Stream

-- ============================================================== the items

namespace Drain

/-- What comes of asking for one item after the other. -/
def answer (drain : Drain) : Nat → Option Item
  | 0 => drain.next.1
  | k + 1 => drain.next.2.1.answer k

/-- All the items. -/
def items (drain : Drain) : List Item := drain.all.1.toList

/-- An induction on the items that are to come. -/
theorem drainInduction {P : Drain → Prop}
    (ended : ∀ drain rest events, drain.next = (none, rest, events) → P drain)
    (more : ∀ drain item rest events, drain.next = (some item, rest, events) → P rest → P drain)
    (drain : Drain) : P drain := by
  induction hn : drain.itemsAhead using Nat.strong_induction_on generalizing drain with
  | _ n ih =>
      rcases hnext : drain.next with ⟨_ | item, rest, events⟩
      · exact ended drain rest events hnext
      · have hless := itemsAhead_lt_of_next hnext
        exact more drain item rest events hnext (ih _ (hn ▸ hless) rest rfl)

variable {drain rest : Drain} {item : Item} {events : List Log.Event}

theorem all_over (h : drain.next = (none, rest, events)) (before : Array Item)
    (logged : Array Log.Event) : drain.all before logged = (before, rest, logged ++ events) := by
  rw [all]
  split <;> simp_all

theorem all_more (h : drain.next = (some item, rest, events)) (before : Array Item)
    (logged : Array Log.Event) :
    drain.all before logged = rest.all (before.push item) (logged ++ events) := by
  rw [all]
  split <;> simp_all

/-- What was collected before stays in front. -/
theorem all_toList (drain : Drain) (before : Array Item) (logged : Array Log.Event) :
    (drain.all before logged).1.toList = before.toList ++ drain.items := by
  induction drain using drainInduction generalizing before logged with
  | ended drain rest events hnext => simp [items, all_over hnext]
  | more drain item rest events hnext ih =>
      rw [items, all_more hnext, all_more hnext, ih, ih]
      simp

theorem items_over (h : drain.next = (none, rest, events)) : drain.items = [] := by
  rw [items, all_over h]

theorem items_more (h : drain.next = (some item, rest, events)) :
    drain.items = item :: rest.items := by
  rw [items, all_more h, all_toList]
  rfl

theorem next_finished (h : drain.finished = true) : drain.next = (none, drain, []) := by
  rw [next, if_pos h]

/-- Draining that has found nothing is over. -/
theorem finished_of_over (h : drain.next = (none, rest, events)) : rest.finished = true := by
  unfold next at h
  split at h
  next hfinished =>
    cases h
    exact hfinished
  next =>
    split at h <;> cases h
    rfl

/-- Asking on and on brings the items, and then nothing forever. -/
theorem answer_eq (drain : Drain) (k : Nat) : drain.answer k = drain.items[k]? := by
  induction k generalizing drain with
  | zero =>
      rcases hnext : drain.next with ⟨_ | item, rest, events⟩
      · simp [answer, hnext, items_over hnext]
      · simp [answer, hnext, items_more hnext]
  | succ k ih =>
      rcases hnext : drain.next with ⟨_ | item, rest, events⟩
      · have hrest := items_over (next_finished (finished_of_over hnext))
        simp [answer, hnext, items_over hnext, ih, hrest]
      · simp [answer, hnext, items_more hnext, ih]

/-- Every item is paid for. -/
theorem length_items_le {w : Tokenizer → Nat} (pays : Tokenizer.Pays w) (drain : Drain) :
    drain.items.length ≤ drain.itemsDue w := by
  induction drain using drainInduction with
  | ended drain rest events hnext => simp [items_over hnext]
  | more drain item rest events hnext ih =>
      have hless := itemsDue_lt_of_next pays hnext
      rw [items_more hnext, List.length_cons]
      omega

/-- What is found first is the next item, unless it is the end. -/
theorem next_of_peek_error {s : Stream} {error : LexError} (h : s.peek.result = .error error) :
    next ⟨s, false⟩ = (some (.error error), ⟨s.peek.stream, error.isFatal⟩, s.peek.events) := by
  simp [next, Stream.hasMore, h, Except.map]

theorem next_of_peek_end {s : Stream} (h : s.peek.result = .ok none) :
    next ⟨s, false⟩ = (none, ⟨s.peek.stream, true⟩, s.peek.events) := by
  simp [next, Stream.hasMore, h, Except.map]

theorem next_of_peek_token {s : Stream} {token : Token} (h : s.peek.result = .ok (some token)) :
    next ⟨s, false⟩ = (some (.ok token), ⟨s.peek.stream.drop, false⟩, s.peek.events) := by
  -- the token that was looked at is taken by a second request
  have hagain := Stream.peek_peek h
  have hconsume := Stream.consume_of_peek_token (congrArg Answer.result hagain)
  rw [hagain] at hconsume
  simp [next, Stream.hasMore, h, hconsume, Except.map]

/-- Over a tokenizer, an item is a token, a fault in the nesting, or a
failure, and nothing comes behind a failure. -/
theorem next_item (hbottom : drain.stream.Bottom fun _ => True)
    (h : drain.next = (some item, rest, events)) :
    (rest.stream.Bottom fun _ => True)
      ∧ ∀ error, item = .error error →
        error ≠ .endOfInput ∧ (error.isFatal = true → rest.finished = true) := by
  have hkeeps := Tokenizer.keeps_true
  have hlook := hbottom.peek hkeeps
  obtain ⟨s, finished⟩ := drain
  cases finished with
  | true =>
      have hover : next ⟨s, true⟩ = (none, ⟨s, true⟩, []) := next_finished rfl
      cases hover.symm.trans h
  | false =>
      rcases hpeek : s.peek.result with error | _ | token
      · cases (next_of_peek_error hpeek).symm.trans h
        refine ⟨hlook, ?_⟩
        rintro raised ⟨⟩
        refine ⟨?_, fun hfatal => hfatal⟩
        rintro rfl
        rcases Stream.peek_error hbottom hpeek with hfatal | hbalance
        · cases hfatal
        · cases hbalance
      · cases (next_of_peek_end hpeek).symm.trans h
      · cases (next_of_peek_token hpeek).symm.trans h
        refine ⟨hlook.drop hkeeps, fun error herror => ?_⟩
        cases herror

theorem endOfInput_not_mem (hbottom : drain.stream.Bottom fun _ => True) :
    .error .endOfInput ∉ drain.items := by
  induction drain using drainInduction with
  | ended drain rest events hnext => simp [items_over hnext]
  | more drain item rest events hnext ih =>
      obtain ⟨hrest, hitem⟩ := next_item hbottom hnext
      rw [items_more hnext, List.mem_cons]
      rintro (hfirst | hlater)
      · exact (hitem _ hfirst.symm).1 rfl
      · exact ih hrest hlater

/-- A failure is the last item. -/
theorem failure_last (hbottom : drain.stream.Bottom fun _ => True) {k : Nat} {error : LexError}
    (h : drain.items[k]? = some (.error error)) (hfatal : error.isFatal = true) :
    k + 1 = drain.items.length := by
  induction drain using drainInduction generalizing k with
  | ended drain rest events hnext => simp [items_over hnext] at h
  | more drain item rest events hnext ih =>
      obtain ⟨hrest, hitem⟩ := next_item hbottom hnext
      rw [items_more hnext] at h ⊢
      cases k with
      | zero =>
          have hfinished := (hitem error (by simpa using h)).2 hfatal
          simp [items_over (next_finished hfinished)]
      | succ k =>
          have hlast := ih hrest (k := k) (by simpa using h)
          rw [List.length_cons, hlast]

end Drain

-- ============================================================== the scan

namespace Scan

/-- Every request of a scan but the last one is paid for. -/
theorem length_answers_le {w : Tokenizer → Nat} (pays : Tokenizer.Pays w)
    (preferences : ScanPreferences) (s : Stream) :
    (answers preferences s).length ≤ s.itemsDue w + 1 := by
  induction s using answers.induct preferences with
  | case1 s hgo ih =>
      have hless := itemsDue_lt_of_goesOn pays hgo
      rw [answers_of_goesOn hgo, List.length_cons]
      omega
  | case2 s hstop =>
      rw [answers_of_stops (eq_false_of_ne_true hstop), List.length_singleton]
      omega

end Scan

-- =============================================================== the bounds

namespace Stream

/-- Over a source that gives `n` characters before its end or its first
failure, a stack of fresh layers with `b` checks is drained after at most
`(1 + b) * n + 1` items, and then nothing comes forever. The end of the
input is no item, and a fatal error is the last one. The loop of a scan
goes through the answers that it gets and is done behind the last one; it
asks for at most `2 * n + 2` of them. -/
theorem draining_ends (source : CharSource) (layers : List Layer) (preferences : ScanPreferences) :
    let n := source.drain.1.length
    let b := layers.count .balance
    let drain : Drain := { stream := stack layers source }
    let checker := Scan.checker source
    let answers := Scan.answers preferences checker
    drain.items.length ≤ (1 + b) * n + 1
      ∧ (∀ k, drain.answer k = drain.items[k]?)
      ∧ .error .endOfInput ∉ drain.items
      ∧ (∀ k error, drain.items[k]? = some (.error error) → error.isFatal = true →
          k + 1 = drain.items.length)
      ∧ (∀ report logged, Scan.run preferences checker report logged
          = (Scan.left preferences checker, answers.foldl (Scan.record preferences) report,
              logged ++ answers.flatMap (·.events)))
      ∧ answers.length ≤ 2 * n + 2 := by
  have hpays := Tokenizer.pays_charactersAhead
  have hcharacters := charactersAhead_ofSource source
  have hbottom : (stack layers source).Bottom fun _ => True := bottom_stack trivial layers
  refine ⟨?_, Drain.answer_eq _, Drain.endOfInput_not_mem hbottom,
    fun k error => Drain.failure_last hbottom, Scan.run_eq preferences _, ?_⟩
  · have hitems := Drain.length_items_le hpays { stream := stack layers source }
    rwa [Drain.itemsDue, if_neg Bool.false_ne_true, itemsDue_stack, hcharacters] at hitems
  · have hanswers := Scan.length_answers_le hpays preferences (stack [.balance] source)
    rw [itemsDue_stack, hcharacters] at hanswers
    show (Scan.answers preferences (stack [.balance] source)).length ≤ _
    simp only [List.count_singleton_self] at hanswers
    omega

end Stream

end LayeredLexer
