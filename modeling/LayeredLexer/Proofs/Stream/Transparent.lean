/-
A line counter is seen by nobody. Where one is put into a stack, every
operation on the outermost layer is answered as without it, and no layer
can be told from the one that stands in its place in the other stack. The
counter itself knows the line behind the tokens that it has pulled.

# Why the states differ

A counter pulls a token as soon as it is looked for, and holds it. Without
the counter the layer below still has the token, and shows it when it is
asked again. So the two stacks can stand to each other in two ways
(`Shadows`): the counter holds nothing and is around the same stream, or
it holds the token that this stream shows in the other stack and has taken
it from there. Further out the layers are in the same states, since a
layer goes by what is found below it and by nothing else (`peek_around`).

# What is due

A stream has tokens due: those that its layers hold, and then those that
the tokenizer has still to deliver. A look changes nothing about them, and
taking the token that is shown takes the first one (`due_look`). What is
not due any more below a counter has been pulled by it.
-/
import LayeredLexer.Proofs.Scan.Lines
import LayeredLexer.Proofs.Stream.Finality
import LayeredLexer.Proofs.Stream.LastError
import LayeredLexer.Proofs.Stream.Taking

namespace LayeredLexer

namespace Stream

variable {s t inner other : Stream}

-- ============================================================== what is due

/-- The tokens that a stream has still to deliver: those that its layers
hold, from the outermost inward, and those that the tokenizer delivers. -/
def due : Stream → List Token
  | .script _ => []
  | .tokenizer t => (tokenizer t).delivered.tokens
  | .lines count inner => count.pending.toList ++ inner.due
  | .balance nesting inner => nesting.pending.toList ++ inner.due
  | .buffer lookahead inner => lookahead.queue ++ inner.due

theorem due_layer (h : s.inner? = some inner) : s.due = s.own ++ inner.due := by
  cases s <;> cases h <;> rfl

/-- A look leaves what is due, and the token that it shows is the first of
it. -/
theorem due_look (hbottom : s.Bottom fun _ => True) :
    s.peek.stream.due = s.due
      ∧ ∀ token, s.peek.result = .ok (some token) → s.due = token :: s.peek.stream.drop.due := by
  induction s using stackInduction with
  | script s => exact hbottom.elim
  | tokenizer t =>
      refine ⟨congrArg Delivery.tokens (delivered_peek t), fun token hshown => ?_⟩
      have hconsume := consume_of_peek_token hshown
      have hdelivered := delivered_ok (congrArg Answer.result hconsume)
      rw [hconsume] at hdelivered
      exact congrArg Delivery.tokens hdelivered
  | layer s inner hinner ih =>
      obtain ⟨hlook, htake⟩ := ih ((bottom_layer hinner).1 hbottom)
      rw [due_layer hinner]
      cases looks_layer hinner with
      | @holds first rest own result stream =>
          rw [stream]
          refine ⟨due_layer hinner, fun token hshown => ?_⟩
          obtain rfl : first = token := by simpa [result] using hshown
          obtain ⟨hbelow, hrest⟩ := drop_layer hinner own
          rw [due_layer hbelow, hrest, own, List.cons_append]
      | @pulls first own below pulled rest result =>
          have hfirst := htake first below
          rw [due_layer rest, pulled, own, List.nil_append, hfirst]
          refine ⟨rfl, fun token hshown => ?_⟩
          obtain ⟨hbelow, hrest⟩ := drop_layer rest pulled
          obtain rfl : first = token := by
            rcases result with hok | ⟨error, herror⟩
            · simpa [hok] using hshown
            · cases herror.symm.trans hshown
          rw [due_layer hbelow, hrest, List.nil_append]
      | passes own below pulled rest result =>
          rw [due_layer rest, pulled, own, List.nil_append, hlook]
          refine ⟨rfl, fun token hshown => ?_⟩
          rcases result with hsame | ⟨-, error, herror⟩
          · exact absurd (hsame.symm.trans hshown) (below token)
          · cases herror.symm.trans hshown

-- =================================================================== pulling

theorem pull_token {token : Token} (h : s.peek.result = .ok (some token)) :
    s.pull = ⟨.ok (some token), s.peek.stream.drop, s.peek.events⟩ := by
  rw [pull_eq]
  generalize s.peek = answer at h ⊢
  obtain ⟨result, next, events⟩ := answer
  cases h
  rfl

theorem pull_other (h : ∀ token, s.peek.result ≠ .ok (some token)) : s.pull = s.peek := by
  rw [pull_eq]
  split <;> simp_all

theorem pull_result (s : Stream) : s.pull.result = s.peek.result := by
  by_cases hshown : ∃ token, s.peek.result = .ok (some token)
  · obtain ⟨token, hshown⟩ := hshown
    rw [pull_token hshown, hshown]
  · rw [pull_other fun token h => hshown ⟨token, h⟩]

/-- Two pulls that find the same have one result between them. -/
theorem pulls_alike (h : t.peek.result = s.peek.result) :
    ∃ result, s.pull = ⟨result, s.pull.stream, s.pull.events⟩
      ∧ t.pull = ⟨result, t.pull.stream, t.pull.events⟩ := by
  rw [← pull_result, ← pull_result] at h
  exact ⟨s.pull.result, rfl, by rw [← h]⟩

-- ============================================================ one layer, twice

/-- The outermost layer of a stream, put around another one. -/
def around (s other : Stream) : Stream :=
  match s with
  | .script _ | .tokenizer _ => s
  | .lines count _ => .lines count other
  | .balance nesting _ => .balance nesting other
  | .buffer lookahead _ => .buffer lookahead other

theorem inner?_around (h : s.inner? = some inner) (other : Stream) :
    (s.around other).inner? = some other := by
  cases s <;> cases h <;> rfl

theorem inner?_drop (h : s.inner? = some inner) : s.drop.inner? = some inner := by
  cases s with
  | buffer lookahead below =>
      cases h
      cases hqueue : lookahead.queue <;> simp [drop, hqueue, inner?]
  | _ => exact h

theorem drop_around (h : s.inner? = some inner) (other : Stream) :
    (s.around other).drop = s.drop.around other := by
  cases s with
  | buffer lookahead below =>
      cases hqueue : lookahead.queue <;> simp [drop, hqueue, around]
  | lines | balance => rfl
  | _ => cases h

/-- Where a check stands and what is logged make no difference to its
verdict. -/
theorem judge_alike (outcome : Option Token) (verdict : Nesting × Option BalanceError)
    (next other : Stream) (events more : List Log.Event) :
    (judge outcome verdict other more).result = (judge outcome verdict next events).result := by
  obtain ⟨nesting, error⟩ := verdict
  cases error <;> rfl

/-- A layer goes by what is found below it. Around two streams in which a
look finds the same it answers alike, and is left alike: around what it was
around, or around what a pull leaves of that. -/
theorem peek_around (h : s.inner? = some inner) (hbelow : other.peek.result = inner.peek.result) :
    (s.around other).peek.result = s.peek.result
      ∧ ∃ inner' other', s.peek.stream.inner? = some inner'
        ∧ (s.around other).peek.stream = s.peek.stream.around other'
        ∧ (inner' = inner ∧ other' = other
          ∨ inner' = inner.pull.stream ∧ other' = other.pull.stream) := by
  obtain ⟨result, hfound, hfound'⟩ := pulls_alike hbelow
  cases s with
  | script | tokenizer => cases h
  | lines count below =>
      cases h
      obtain ⟨pending, line⟩ := count
      cases pending with
      | some token => exact ⟨rfl, inner, other, rfl, rfl, Or.inl ⟨rfl, rfl⟩⟩
      | none =>
          unfold around
          rw [peek_lines_pull, peek_lines_pull, hfound, hfound']
          rcases result with error | _ | token <;>
            exact ⟨rfl, _, _, rfl, rfl, Or.inr ⟨rfl, rfl⟩⟩
  | balance nesting below =>
      cases h
      cases hpending : nesting.pending with
      | some token =>
          unfold around
          rw [peek_balance_held hpending, peek_balance_held hpending]
          exact ⟨rfl, inner, other, rfl, rfl, Or.inl ⟨rfl, rfl⟩⟩
      | none =>
          unfold around
          rw [peek_balance_pull hpending, peek_balance_pull hpending, hfound, hfound']
          rcases result with error | _ | token
          · exact ⟨rfl, _, _, rfl, rfl, Or.inr ⟨rfl, rfl⟩⟩
          all_goals
            dsimp only
            rw [judge_stream, judge_stream]
            exact ⟨judge_alike .., _, _, rfl, rfl, Or.inr ⟨rfl, rfl⟩⟩
  | buffer lookahead below =>
      cases h
      cases hqueue : lookahead.queue with
      | cons token rest =>
          unfold around
          rw [peek_buffer_held hqueue, peek_buffer_held hqueue]
          exact ⟨rfl, inner, other, rfl, rfl, Or.inl ⟨rfl, rfl⟩⟩
      | nil =>
          unfold around
          rw [peek_buffer_pull hqueue, peek_buffer_pull hqueue, hfound, hfound']
          rcases result with error | _ | token <;>
            exact ⟨rfl, _, _, rfl, rfl, Or.inr ⟨rfl, rfl⟩⟩

-- ============================================================ two stacks

/-- The line is the one behind the tokens that have been pulled out of a
stream from which these were due at first. -/
structure Counted (dueFirst : List Token) (line : Nat) (below : Stream) : Prop where
  bottom : below.Bottom fun _ => True
  line_eq : ∃ pulled, pulled ++ below.due = dueFirst ∧ line = reached 1 pulled

/-- The second stack is the first one with a line counter in it, `k` layers
below the top. -/
inductive Shadows (dueFirst : List Token) : Nat → Stream → Stream → Prop
  /-- The counter holds nothing, and is around the same stream. -/
  | fresh {s : Stream} {line : Nat} (counted : Counted dueFirst line s) :
      Shadows dueFirst 0 s (.lines ⟨none, line⟩ s)
  /-- It holds a token that the stream still shows in the other stack. -/
  | holding {s : Stream} {token : Token} {line : Nat} (shown : s.peek = ⟨.ok (some token), s, []⟩)
      (counted : Counted dueFirst line s.drop) :
      Shadows dueFirst 0 s (.lines ⟨some token, line⟩ s.drop)
  /-- It is further down, below a layer that is the same in both. -/
  | layer {k : Nat} {s inner other : Stream} (hinner : s.inner? = some inner)
      (below : Shadows dueFirst k inner other) :
      Shadows dueFirst (k + 1) s (s.around other)

variable {dueFirst : List Token} {line k : Nat}

theorem Counted.look (h : Counted dueFirst line s) : Counted dueFirst line s.peek.stream := by
  refine ⟨h.bottom.peek Tokenizer.keeps_true, ?_⟩
  rw [(due_look h.bottom).1]
  exact h.line_eq

theorem Counted.take (h : Counted dueFirst line s) {token : Token}
    (hshown : s.peek.result = .ok (some token)) :
    Counted dueFirst (token.behind line) s.peek.stream.drop := by
  obtain ⟨pulled, hdue, rfl⟩ := h.line_eq
  refine ⟨h.look.bottom.drop Tokenizer.keeps_true, pulled ++ [token], ?_, ?_⟩
  · rw [← hdue, (due_look h.bottom).2 token hshown, List.append_assoc, List.singleton_append]
  · unfold reached
    rw [List.foldl_append, List.foldl_cons, List.foldl_nil]

/-- A look and a pull find the same in both stacks, and leave them as they
were to each other. -/
theorem Shadows.look (h : Shadows dueFirst k s t) :
    t.peek.result = s.peek.result ∧ Shadows dueFirst k s.peek.stream t.peek.stream
      ∧ Shadows dueFirst k s.pull.stream t.pull.stream := by
  induction h with
  | @fresh s line counted =>
      by_cases hshown : ∃ token, s.peek.result = .ok (some token)
      · obtain ⟨token, hshown⟩ := hshown
        have hcounter := peek_lines_token hshown line
        have hcounted := counted.take hshown
        rw [pull_token hshown, pull_token (congrArg Answer.result hcounter), hcounter]
        -- the counter has taken what the stream in the other stack still shows
        exact ⟨hshown.symm, .holding (peek_peek hshown) hcounted, .fresh hcounted⟩
      · have hother (token : Token) : s.peek.result ≠ .ok (some token) :=
          fun h => hshown ⟨token, h⟩
        have hcounter := peek_lines_pass hother line
        have hsame : (lines ⟨none, line⟩ s).peek.result = s.peek.result := by rw [hcounter]
        rw [pull_other hother, pull_other (hsame ▸ hother), hcounter]
        exact ⟨rfl, .fresh counted.look, .fresh counted.look⟩
  | @holding s token line shown counted =>
      have hcounter : (lines ⟨some token, line⟩ s.drop).peek
          = ⟨.ok (some token), .lines ⟨some token, line⟩ s.drop, []⟩ := rfl
      rw [pull_token (congrArg Answer.result shown), pull_token (congrArg Answer.result hcounter),
        hcounter, shown]
      exact ⟨rfl, .holding shown counted, .fresh counted⟩
  | @layer k s inner other hinner below ih =>
      obtain ⟨hresult, hpeek, hpull⟩ := ih
      obtain ⟨hsame, inner', other', hinner', hother', hnext⟩ := peek_around hinner hresult
      -- the layer has left what is below alone, or has pulled it, in both stacks
      have hbelow : Shadows dueFirst k inner' other' := by
        rcases hnext with ⟨rfl, rfl⟩ | ⟨rfl, rfl⟩
        · exact below
        · exact hpull
      have hlook := Shadows.layer hinner' hbelow
      rw [← hother'] at hlook
      refine ⟨hsame, hlook, ?_⟩
      by_cases hshown : ∃ token, s.peek.result = .ok (some token)
      · obtain ⟨token, hshown⟩ := hshown
        rw [pull_token hshown, pull_token (hsame.trans hshown), hother', drop_around hinner']
        exact .layer (inner?_drop hinner') hbelow
      · have hother (token : Token) : s.peek.result ≠ .ok (some token) :=
          fun h => hshown ⟨token, h⟩
        rw [pull_other hother, pull_other (hsame ▸ hother)]
        exact hlook

/-- So does a pull of any number of tokens. -/
theorem Shadows.gather (h : Shadows dueFirst k s t) (missing : Nat) (pulled : List Token)
    (events more : List Log.Event) :
    (gather missing pulled t more).1 = (gather missing pulled s events).1
      ∧ (gather missing pulled t more).2.result = (gather missing pulled s events).2.result
      ∧ Shadows dueFirst k (gather missing pulled s events).2.stream
        (gather missing pulled t more).2.stream := by
  induction missing generalizing s t pulled events more with
  | zero => exact ⟨rfl, rfl, h⟩
  | succ missing ih =>
      obtain ⟨hresult, -, hpull⟩ := h.look
      obtain ⟨result, hfound, hfound'⟩ := pulls_alike hresult
      rw [gather_pull, gather_pull, hfound, hfound']
      rcases result with error | _ | token
      · exact ⟨rfl, rfl, hpull⟩
      · exact ⟨rfl, rfl, hpull⟩
      · exact ih hpull _ _ _

end Stream

/-- Every stream has this operation, a buffer or not. -/
def Operation.isPlain : Operation → Bool
  | .peek | .hasMore | .consume => true
  | .peekNth _ | .pushback _ => false

namespace Stream

variable {s t : Stream} {dueFirst : List Token} {k : Nat}

/-- Consuming is pulling, but for the end. -/
theorem consume_eq_pull (s : Stream) :
    s.consume = match s.pull with
      | ⟨.ok (some token), next, events⟩ => ⟨.ok token, next, events⟩
      | ⟨.ok none, next, events⟩ => ⟨.error .endOfInput, next, events⟩
      | ⟨.error error, next, events⟩ => ⟨.error error, next, events⟩ := by
  rw [consume_eq_takeNext, takeNext, pull_eq]
  rcases s.peek with ⟨error | _ | token, next, events⟩ <;> rfl

/-- An operation on the top is answered alike, if both tops have it. -/
theorem Shadows.perform (h : Shadows dueFirst k s t) {op : Operation}
    (hop : k = 0 → op.isPlain = true) :
    (t.perform op).result = (s.perform op).result
      ∧ Shadows dueFirst k (s.perform op).stream (t.perform op).stream := by
  obtain ⟨hresult, hpeek, hpull⟩ := h.look
  cases op with
  | peek => exact ⟨congrArg (Except.map Reply.shown) hresult, hpeek⟩
  | hasMore =>
      refine ⟨?_, hpeek⟩
      show (t.peek.result.map _).map _ = (s.peek.result.map _).map _
      rw [hresult]
  | consume =>
      show t.consume.result.map _ = s.consume.result.map _
        ∧ Shadows dueFirst k s.consume.stream t.consume.stream
      obtain ⟨result, hfound, hfound'⟩ := pulls_alike hresult
      rw [consume_eq_pull, consume_eq_pull, hfound, hfound']
      rcases result with error | _ | token <;> exact ⟨rfl, hpull⟩
  | peekNth n =>
      cases h with
      | fresh | holding => cases hop rfl
      | @layer k s inner other hinner below =>
          cases s with
          | script | tokenizer => cases hinner
          | lines | balance => exact ⟨rfl, .layer hinner below⟩
          | buffer lookahead inner =>
              cases hinner
              obtain ⟨hpulled, hfound, hrest⟩ :=
                below.gather (n + 1 - lookahead.queue.length) [] [] []
              obtain ⟨hanswer, hnext⟩ := perform_peekNth lookahead inner n
              obtain ⟨hanswer', hnext'⟩ := perform_peekNth lookahead other n
              unfold around
              rw [hanswer, hanswer', hnext, hnext', hpulled, hfound]
              exact ⟨rfl, .layer rfl hrest⟩
  | pushback token =>
      cases h with
      | fresh | holding => cases hop rfl
      | @layer k s inner other hinner below =>
          cases s with
          | script | tokenizer => cases hinner
          | lines | balance => exact ⟨rfl, .layer hinner below⟩
          | buffer lookahead inner =>
              cases hinner
              unfold around
              by_cases hlast : lookahead.last = some token
              · obtain ⟨hanswer, hnext⟩ := perform_pushback_last hlast inner
                obtain ⟨hanswer', hnext'⟩ := perform_pushback_last hlast other
                rw [hanswer, hanswer', hnext, hnext']
                exact ⟨rfl, .layer rfl below⟩
              · obtain ⟨hanswer, hnext⟩ := perform_pushback_other hlast inner
                obtain ⟨hanswer', hnext'⟩ := perform_pushback_other hlast other
                rw [hanswer, hanswer', hnext, hnext']
                exact ⟨rfl, .layer rfl below⟩

/-- So are all operations that are done one after the other. -/
theorem Shadows.run (h : Shadows dueFirst k s t) {ops : List Operation}
    (hops : k = 0 → ∀ op ∈ ops, op.isPlain = true) :
    t.results ops = s.results ops ∧ Shadows dueFirst k (s.after ops) (t.after ops) := by
  induction ops generalizing s t with
  | nil => exact ⟨rfl, h⟩
  | cons op ops ih =>
      obtain ⟨hfirst, hnext⟩ := h.perform fun hk => hops hk op List.mem_cons_self
      obtain ⟨hresults, hafter⟩ := ih hnext fun hk other hmem =>
        hops hk other (List.mem_cons_of_mem op hmem)
      refine ⟨?_, hafter⟩
      unfold results
      rw [hfirst, hresults]

-- ============================================================= what is seen

/-- The depth of every balance check, from the outermost inward. -/
def depths : Stream → List Nat
  | .script _ | .tokenizer _ => []
  | .balance nesting inner => (balance nesting inner).depth :: inner.depths
  | .lines _ inner | .buffer _ inner => inner.depths

/-- The stream below the `k` outermost layers. -/
def beneath : Nat → Stream → Stream
  | 0, s => s
  | k + 1, s =>
    match s.inner? with
    | some inner => inner.beneath k
    | none => s

/-- A fresh line counter put in below the `k` outermost layers. -/
def insertLines : Nat → Stream → Stream
  | 0, s => s.wrap .lines
  | k + 1, s =>
    match s.inner? with
    | some inner => s.around (inner.insertLines k)
    | none => s

theorem beneath_layer {inner : Stream} (h : s.inner? = some inner) (k : Nat) :
    s.beneath (k + 1) = inner.beneath k := by
  rw [beneath, h]

theorem insertLines_layer {inner : Stream} (h : s.inner? = some inner) (k : Nat) :
    s.insertLines (k + 1) = s.around (inner.insertLines k) := by
  rw [insertLines, h]

theorem offset_drop (h : s.drop.Bottom fun _ => True) : s.drop.offset = s.offset := by
  cases s with
  | script s => exact h.elim
  | tokenizer t => cases hfront : t.front <;> simp [drop, Tokenizer.drop, offset, hfront]
  | lines | balance => rfl
  | buffer lookahead inner => cases hqueue : lookahead.queue <;> simp [drop, hqueue, offset]

theorem depths_drop (s : Stream) : s.drop.depths = s.depths := by
  cases s with
  | buffer lookahead inner => cases hqueue : lookahead.queue <;> simp [drop, hqueue, depths]
  | _ => rfl

theorem lastError_drop (s : Stream) : s.drop.lastError = s.lastError := by
  rw [lastError_eq, lastError_eq, told?_drop]

/-- Neither stack tells from outside which one it is. -/
theorem Shadows.alike (h : Shadows dueFirst k s t) :
    t.offset = s.offset ∧ t.lastError = s.lastError ∧ t.depths = s.depths := by
  induction h with
  | fresh counted => exact ⟨rfl, rfl, rfl⟩
  | @holding s token line shown counted =>
      exact ⟨offset_drop counted.bottom, lastError_drop s, depths_drop s⟩
  | @layer k s inner other hinner below ih =>
      obtain ⟨hoffset, herror, hdepths⟩ := ih
      cases s with
      | script | tokenizer => cases hinner
      | lines | balance | buffer =>
          cases hinner
          simp [around, offset, lastError, depths, depth, hoffset, herror, hdepths]

/-- The counter is where it was put, and has counted what it has pulled. -/
theorem Shadows.counter (h : Shadows dueFirst k s t) :
    ∃ count below, t.beneath k = .lines count below ∧ Counted dueFirst count.line below := by
  induction h with
  | fresh counted => exact ⟨_, _, rfl, counted⟩
  | holding shown counted => exact ⟨_, _, rfl, counted⟩
  | @layer k s inner other hinner below ih =>
      rw [beneath_layer (inner?_around hinner other)]
      exact ih

/-- A counter that is put in shadows. -/
theorem shadows_insertLines (hbottom : s.Bottom fun _ => True) (hk : k ≤ s.height) :
    Shadows (s.beneath k).due k s (s.insertLines k) := by
  induction k generalizing s with
  | zero => exact .fresh ⟨hbottom, [], rfl, rfl⟩
  | succ k ih =>
      cases hinner : s.inner? with
      | none =>
          cases s with
          | script | tokenizer => cases hk
          | _ => cases hinner
      | some inner =>
          have hheight := height_layer hinner
          rw [beneath_layer hinner, insertLines_layer hinner]
          exact .layer hinner (ih ((bottom_layer hinner).1 hbottom) (by omega))

/-- Putting a counter into fresh layers is wrapping one among them. -/
theorem insertLines_stack (front back : List Layer) (source : CharSource) :
    (stack (front ++ back) source).insertLines (stack back source).height
      = stack (front ++ .lines :: back) source := by
  -- from the back: the last layer of the list is the outermost one
  induction back using List.reverseRecOn with
  | nil =>
      rw [stack_append, List.append_nil]
      rfl
  | append_singleton back layer ih =>
      rw [← List.append_assoc, ← List.cons_append, ← List.append_assoc, stack_append,
        stack_append, stack_append, ← ih]
      cases layer <;> rfl

/-- A line counter put into a stack over a tokenizer, at any place, is seen
by nobody: whatever is asked of the top one thing after the other, the
answers are the same, the offset and the last error that are told are the
same, and so are the depths of all checks. If it is put on top, no more
can be asked than every stream answers. The counter tells the line behind
the tokens that it has pulled, those that were due below it at first and
are not any more. -/
theorem insertLines_transparent (hbottom : s.Bottom fun _ => True) (hk : k ≤ s.height)
    (ops : List Operation) (hops : k = 0 → ∀ op ∈ ops, op.isPlain = true) :
    let t := s.insertLines k
    t.results ops = s.results ops
      ∧ (t.after ops).offset = (s.after ops).offset
      ∧ (t.after ops).lastError = (s.after ops).lastError
      ∧ (t.after ops).depths = (s.after ops).depths
      ∧ ∃ count below pulled, (t.after ops).beneath k = .lines count below
        ∧ pulled ++ below.due = (s.beneath k).due
        ∧ count.line = min (1 + triviaLineEnds pulled) maxLine := by
  intro t
  obtain ⟨hresults, hafter⟩ := (shadows_insertLines hbottom hk).run hops
  obtain ⟨hoffset, herror, hdepths⟩ := hafter.alike
  obtain ⟨count, below, hcount, -, pulled, hdue, hline⟩ := hafter.counter
  refine ⟨hresults, hoffset, herror, hdepths, count, below, pulled, hcount, hdue, ?_⟩
  rw [hline, reached_eq (by decide)]

/-- Reads ahead, past what can be given back, and gives it back. -/
def aheadAndBack : List Operation :=
  [.peekNth 2, .consume, .peekNth 2, .pushback ⟨.symbol, ")", 0⟩, .hasMore]

/-- A counter between a buffer and the check below it, which is a layer of
the stack like the others. The first look ahead comes upon a closer that
finds nothing open, and raises that. -/
theorem insertLines_transparent_between :
    let s := stack ([.balance] ++ [.buffer]) (.ofString ") \n(b")
    let t := s.insertLines 1
    t = stack ([.balance] ++ .lines :: [.buffer]) (.ofString ") \n(b")
      ∧ (s.Bottom fun _ => True) ∧ 1 ≤ s.height
      ∧ (1 = 0 → ∀ op ∈ aheadAndBack, op.isPlain = true)
      ∧ t.results aheadAndBack = s.results aheadAndBack
      ∧ (t.after aheadAndBack).offset = (s.after aheadAndBack).offset
      ∧ (t.after aheadAndBack).lastError = (s.after aheadAndBack).lastError
      ∧ (t.after aheadAndBack).depths = (s.after aheadAndBack).depths
      ∧ ∃ count below pulled, (t.after aheadAndBack).beneath 1 = .lines count below
        ∧ pulled ++ below.due = (s.beneath 1).due
        ∧ count.line = min (1 + triviaLineEnds pulled) maxLine := by
  intro s t
  have hstack : t = stack ([.balance] ++ .lines :: [.buffer]) (.ofString ") \n(b") :=
    insertLines_stack [.balance] [.buffer] (.ofString ") \n(b")
  have hbottom : s.Bottom fun _ => True := trivial
  have hheight : 1 ≤ s.height := by decide
  exact ⟨hstack, hbottom, hheight, nofun,
    insertLines_transparent hbottom hheight aheadAndBack nofun⟩

end Stream

end LayeredLexer
