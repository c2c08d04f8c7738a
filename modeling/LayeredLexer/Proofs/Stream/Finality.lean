/-
A failure is final. When the tokenizer at the bottom of a stack has met
one, every later look at it finds it again, and no layer is in the way: a
layer that answered with the failure held no token, so it asks below
again, is told the failure again and passes it on. A check has openers to
report only at the end of the input, which is never found.

# What is left

A buffer on top is the one layer that can hold tokens when it answers with
a failure, those that it had pulled when it came upon it. They are
delivered before the failure is met again, and the one that was delivered
last can be given back. So only tokens are still shown that the buffer
had, and everything below it stands still (`Spent`).

# Where tokens come from

Every token that a stack holds, or takes back, is one that the tokenizer
delivered (`Drawn`). A tokenizer that has failed delivers none, so those
are the ones that were pulled before.
-/
import LayeredLexer.Proofs.Stream.Conservation

namespace LayeredLexer

namespace Stream

variable {s inner : Stream} {failure : LexFailure} {error : LexError}

-- ================================================================ the failure

/-- A look finds this error, and changes nothing. -/
def Fixed (s : Stream) (error : LexError) : Prop := s.peek = ⟨.error error, s, []⟩

theorem Fixed.not_token (h : s.Fixed error) (token : Token) : s.peek.result ≠ .ok (some token) := by
  rw [h]
  exact nofun

/-- A layer that holds nothing passes it on, again and again. -/
theorem Fixed.layer (h : inner.Fixed error) (hinner : s.inner? = some inner) (hown : s.own = []) :
    s.Fixed error := by
  cases s with
  | script s => cases hinner
  | tokenizer t => cases hinner
  | lines count below =>
      cases hinner
      obtain ⟨pending, line⟩ := count
      cases pending with
      | some token => cases hown
      | none =>
          unfold Fixed
          rw [peek_lines_pass h.not_token, h]
  | balance nesting below =>
      cases hinner
      have hpending : nesting.pending = none := by
        cases hpending : nesting.pending with
        | none => rfl
        | some token => simp [own, hpending] at hown
      unfold Fixed
      rw [peek_balance_error (congrArg Answer.result h) hpending, h]
  | buffer lookahead below =>
      cases hinner
      unfold Fixed
      rw [peek_buffer_pass h.not_token hown, h]

/-- A look that finds a failure has gone down to the tokenizer, and no
layer on the way holds a token. -/
theorem fixed_of_failure (hbottom : s.Bottom fun _ => True)
    (h : s.peek.result = .error (.failure failure)) :
    s.peek.stream.Fixed (.failure failure) ∧ s.peek.stream.held = [] := by
  induction s using stackInduction with
  | script s => exact hbottom.elim
  | tokenizer t =>
      have hlook : t.peek.2.1.look = .error (.failure failure) := t.peek_eq_look.symm.trans h
      have hfront : t.peek.2.1.front = .failed failure := by
        unfold Tokenizer.look at hlook
        split at hlook <;> simp_all
      show (tokenizer t.peek.2.1).Fixed _ ∧ (tokenizer t.peek.2.1).held = []
      generalize t.peek.2.1 = next at hfront
      simp [Fixed, peek, Tokenizer.peek, Tokenizer.look, held, Front.tokens, hfront]
  | layer s inner hinner ih =>
      cases looks_layer hinner with
      | holds own result stream => cases result.symm.trans h
      | pulls own below pulled rest result =>
          rcases result with hok | ⟨error, herror⟩
          · cases hok.symm.trans h
          · cases herror.symm.trans h
      | passes own below pulled rest result =>
          rcases result with hsame | ⟨-, error, herror⟩
          · obtain ⟨hfixed, hheld⟩ := ih ((bottom_layer hinner).1 hbottom) (hsame.symm.trans h)
            refine ⟨hfixed.layer rest pulled, ?_⟩
            rw [held_layer rest, pulled, hheld, List.append_nil]
          · cases herror.symm.trans h

/-- A pull comes upon it at once. -/
theorem Fixed.gather (h : s.Fixed error) (missing : Nat) (pulled : List Token)
    (events : List Log.Event) :
    Stream.gather missing pulled s events
      = (pulled, ⟨if missing = 0 then .ok true else .error error, s, events⟩) := by
  cases missing with
  | zero => rfl
  | succ missing =>
      rw [Stream.gather, h]
      simp

/-- A pull that comes upon a failure has gone down to the tokenizer. -/
theorem fixed_of_gather (hbottom : inner.Bottom fun _ => True) (missing : Nat) (pulled : List Token)
    (events : List Log.Event)
    (h : (gather missing pulled inner events).2.result = .error (.failure failure)) :
    (gather missing pulled inner events).2.stream.Fixed (.failure failure)
      ∧ (gather missing pulled inner events).2.stream.held = [] := by
  fun_induction gather missing pulled inner events with
  | case1 => cases h
  | case2 pulled s events missing token next more hpeek ih =>
      have hnext := hbottom.peek Tokenizer.keeps_true
      rw [hpeek] at hnext
      exact ih (hnext.drop Tokenizer.keeps_true) h
  | case3 => cases h
  | case4 pulled s events missing raised next more hpeek =>
      cases h
      have hmet : s.peek.result = .error (.failure failure) := by rw [hpeek]
      have hfixed := fixed_of_failure hbottom hmet
      rwa [hpeek] at hfixed

-- =============================================================== what is left

/-- The tokens that a stack can show without a look at its tokenizer: the
one that it takes back, and those that it holds. -/
def inHand (s : Stream) : List Token := s.givable?.toList ++ s.held

/-- What there is to be found `n` places ahead, with these tokens left
before an error. -/
def leftAt (error : LexError) (held : List Token) (n : Nat) : Except LexError Token :=
  match held[n]? with
  | some token => .ok token
  | none => .error error

/-- Behind an error that is final, at this offset: nothing but these
tokens is still to be shown. -/
inductive Spent (error : LexError) (pulled : List Token) (offset : Nat) : Stream → Prop
  /-- Whatever the top is, if it is no buffer. -/
  | bare {s : Stream} (fixed : s.Fixed error) (held : s.held = []) (at_offset : s.offset = offset)
      (no_buffer : s.kinds.head? ≠ some .buffer) : Spent error pulled offset s
  | buffer {lookahead : Lookahead} {inner : Stream} (fixed : inner.Fixed error)
      (held : inner.held = []) (at_offset : inner.offset = offset)
      (queued : ∀ token ∈ lookahead.queue, token ∈ pulled)
      (last : ∀ token, lookahead.last = some token → token ∈ pulled) :
      Spent error pulled offset (.buffer lookahead inner)

variable {pulled : List Token} {offset : Nat}

/-- A stack whose answer is a failure is spent, but for the tokens that it
holds or takes back. -/
theorem spent_peek (hbottom : s.Bottom fun _ => True)
    (h : s.peek.result = .error (.failure failure)) :
    s.peek.stream.Spent (.failure failure) s.peek.stream.inHand
      s.peek.stream.offset := by
  by_cases hbuffer : s.kinds.head? = some .buffer
  · cases s with
    | buffer lookahead inner =>
        cases hqueue : lookahead.queue with
        | cons token rest =>
            rw [peek_buffer_held hqueue] at h
            cases h
        | nil =>
            have hnone : ∀ token, inner.peek.result ≠ .ok (some token) := by
              intro token hshown
              rw [peek_buffer_token hshown hqueue] at h
              cases h
            have hpeek := peek_buffer_pass hnone hqueue
            rw [hpeek] at h ⊢
            obtain ⟨hfixed, hheld⟩ := fixed_of_failure (s := inner) hbottom h
            refine .buffer hfixed hheld rfl ?_ fun token hlast => ?_
            · rw [hqueue]
              exact nofun
            · exact List.mem_append_left _ (Option.mem_toList.2 hlast)
    | _ => cases hbuffer
  · obtain ⟨hfixed, hheld⟩ := fixed_of_failure hbottom h
    refine .bare hfixed hheld rfl ?_
    rw [kinds_peek]
    exact hbuffer

/-- So is one whose answer to any operation is a failure. -/
theorem spent_perform (hbottom : s.Bottom fun _ => True) {op : Operation}
    (h : (s.perform op).result = .error (.failure failure)) :
    (s.perform op).stream.Spent (.failure failure)
      (s.perform op).stream.inHand (s.perform op).stream.offset := by
  cases op with
  | peek => exact spent_peek hbottom (Answer.error_of_map h)
  | hasMore =>
      have hmore : s.hasMore.result = .error (.failure failure) := Answer.error_of_map h
      exact spent_peek hbottom (hasMore_error.1 hmore)
  | consume =>
      have hconsume : s.consume.result = .error (.failure failure) := Answer.error_of_map h
      show s.consume.stream.Spent _ s.consume.stream.inHand s.consume.stream.offset
      rcases hpeek : s.peek.result with raised | _ | token
      · rw [consume_of_peek_error hpeek] at hconsume ⊢
        cases hconsume
        exact spent_peek hbottom hpeek
      · rw [consume_of_peek_end hpeek] at hconsume
        cases hconsume
      · rw [consume_of_peek_token hpeek] at hconsume
        cases hconsume
  | peekNth n =>
      cases s with
      | buffer lookahead inner =>
          obtain ⟨hresult, hstream⟩ := perform_peekNth lookahead inner n
          rw [hresult] at h
          have hinner : inner.Bottom fun _ => True := hbottom
          obtain ⟨hfixed, hheld⟩ := fixed_of_gather hinner _ _ _
            (Answer.error_of_map (Answer.error_of_map h))
          rw [hstream]
          refine .buffer hfixed hheld rfl (fun token hmem => ?_) fun token hlast => ?_
          · exact List.mem_append_right _ (List.mem_append_left _ hmem)
          · exact List.mem_append_left _ (Option.mem_toList.2 hlast)
      | _ => cases h
  | pushback token =>
      cases s with
      | buffer lookahead inner =>
          by_cases hlast : lookahead.last = some token
          · cases (perform_pushback_last hlast inner).1.symm.trans h
          · cases (perform_pushback_other hlast inner).1.symm.trans h
      | _ => cases h

/-- A look at what is left shows the first token that is held, and when
none is held it finds the failure. -/
theorem Spent.look (h : s.Spent error pulled offset) :
    s.Fixed error ∧ s.held = []
      ∨ ∃ token rest, s.peek = ⟨.ok (some token), s, []⟩ ∧ token ∈ pulled
        ∧ s.held = token :: rest ∧ s.drop.held = rest ∧ s.drop.Spent error pulled offset := by
  cases h with
  | bare fixed held at_offset no_buffer => exact .inl ⟨fixed, held⟩
  | @buffer lookahead inner fixed held at_offset queued last =>
      cases hqueue : lookahead.queue with
      | nil =>
          refine .inl ⟨fixed.layer rfl hqueue, ?_⟩
          rw [Stream.held, hqueue, held, List.append_nil]
      | cons token rest =>
          have hmem : token ∈ pulled := queued token (hqueue ▸ List.mem_cons_self)
          refine .inr ⟨token, rest, peek_buffer_held hqueue inner, hmem, ?_, ?_, ?_⟩
          · rw [Stream.held, hqueue, held, List.append_nil]
          · rw [drop_buffer lookahead token rest inner hqueue, Stream.held, held, List.append_nil]
          · rw [drop_buffer lookahead token rest inner hqueue]
            refine .buffer fixed held at_offset (fun other hrest => ?_) ?_
            · exact queued other (hqueue ▸ List.mem_cons_of_mem _ hrest)
            · rintro other ⟨⟩
              exact hmem

theorem Spent.peek_result (h : s.Spent error pulled offset) :
    s.peek.result = (leftAt error s.held 0).map some := by
  rcases h.look with ⟨hfixed, hnone⟩ | ⟨token, rest, hshown, -, hheld, -⟩
  · rw [hfixed, hnone]
    rfl
  · rw [hshown, hheld]
    rfl

theorem Spent.offset_eq (h : s.Spent error pulled offset) : s.offset = offset := by
  cases h with
  | bare fixed held at_offset no_buffer => exact at_offset
  | buffer fixed held at_offset queued last => exact at_offset

/-- Looking further ahead shows the token that is held there, or finds the
failure, and changes nothing. -/
theorem Spent.peekNth (h : s.Spent error pulled offset) {n : Nat} {answer : Answer (Option Token)}
    (hanswer : s.peekNth? n = some answer) :
    answer.stream = s ∧ answer.result = (leftAt error s.held n).map some := by
  cases h with
  | bare fixed held at_offset no_buffer =>
      cases s with
      | buffer lookahead inner => exact absurd rfl no_buffer
      | _ => cases hanswer
  | @buffer lookahead inner fixed held at_offset queued last =>
      rw [peekNth?, fixed.gather] at hanswer
      cases hanswer
      refine ⟨by simp, ?_⟩
      rw [Stream.held, held, List.append_nil]
      by_cases hqueued : n < lookahead.queue.length
      · rw [if_pos (by omega)]
        simp [Except.map, leftAt, hqueued]
      · have hnone : lookahead.queue[n]? = none := List.getElem?_eq_none (by omega)
        rw [if_neg (by omega), leftAt, hnone]
        rfl

/-- Whatever is asked, nothing more is shown later. -/
theorem Spent.perform (h : s.Spent error pulled offset) (op : Operation) :
    (s.perform op).stream.Spent error pulled offset := by
  have hpeek : s.peek.stream = s := by
    rcases h.look with ⟨hfixed, -⟩ | ⟨token, rest, hshown, -⟩
    · rw [hfixed]
    · rw [hshown]
  cases op with
  | peek => exact hpeek.symm ▸ h
  | hasMore => exact hpeek.symm ▸ h
  | consume =>
      show s.consume.stream.Spent error pulled offset
      rcases h.look with ⟨hfixed, -⟩ | ⟨token, rest, hshown, -, -, -, hdrop⟩
      · rw [consume_of_peek_error (congrArg Answer.result hfixed), hpeek]
        exact h
      · rw [consume_of_peek_token (congrArg Answer.result hshown), hpeek]
        exact hdrop
  | peekNth n =>
      cases hanswer : s.peekNth? n with
      | some answer =>
          have hsame : (s.perform (.peekNth n)).stream = answer.stream := by
            simp [Stream.perform, hanswer, Answer.map]
          rw [hsame, (h.peekNth hanswer).1]
          exact h
      | none => simpa [Stream.perform, hanswer] using h
  | pushback token =>
      cases h with
      | bare fixed held at_offset no_buffer =>
          cases s with
          | buffer lookahead inner => exact absurd rfl no_buffer
          | _ => exact .bare fixed held at_offset no_buffer
      | @buffer lookahead inner fixed held at_offset queued last =>
          by_cases hlast : lookahead.last = some token
          · rw [(perform_pushback_last hlast inner).2]
            refine .buffer fixed held at_offset (fun other hmem => ?_) nofun
            rcases List.mem_cons.1 hmem with rfl | hrest
            · exact last other hlast
            · exact queued other hrest
          · rw [(perform_pushback_other hlast inner).2]
            exact .buffer fixed held at_offset queued last

theorem Spent.after (h : s.Spent error pulled offset) (ops : List Operation) :
    (s.after ops).Spent error pulled offset := by
  induction ops generalizing s with
  | nil => exact h
  | cons op ops ih => exact ih (h.perform op)

/-- The tokens that are held are taken first, and then the failure is met
again. -/
theorem Spent.results_consume (h : s.Spent error pulled offset) :
    s.results (List.replicate (s.held.length + 1) .consume)
      = s.held.map (fun token => .ok (.taken token)) ++ [.error error] := by
  generalize hheld : s.held = held
  induction held generalizing s with
  | nil =>
      rcases h.look with ⟨hfixed, -⟩ | ⟨token, rest, -, -, hmore, -⟩
      · have hresult : s.consume.result = .error error := by
          rw [consume_of_peek_error (congrArg Answer.result hfixed)]
        show [s.consume.result.map Reply.taken] = _
        rw [hresult]
        rfl
      · cases hheld.symm.trans hmore
  | cons first rest ih =>
      rcases h.look with ⟨-, hnone⟩ | ⟨token, others, hshown, -, hmore, hleft, hdrop⟩
      · cases hheld.symm.trans hnone
      · cases hheld.symm.trans hmore
        have hconsume := consume_of_peek_token (congrArg Answer.result hshown)
        rw [hshown] at hconsume
        show s.consume.result.map Reply.taken
          :: s.consume.stream.results (List.replicate (rest.length + 1) .consume) = _
        rw [hconsume, ih hdrop hleft]
        rfl

-- ==================================================== where tokens come from

/-- A look at a tokenizer takes nothing from what it delivers. -/
theorem delivered_peek (t : Tokenizer) :
    (tokenizer t).peek.stream.delivered = (tokenizer t).delivered := by
  rcases hpeek : (tokenizer t).peek.result with error | _ | token
  · cases error with
    | failure failure =>
        have hfixed := (fixed_of_failure (s := tokenizer t) trivial hpeek).1
        have hagain := consume_of_peek_error (congrArg Answer.result hfixed)
        rw [delivered_error (congrArg Answer.result (consume_of_peek_error hpeek)),
          delivered_error (congrArg Answer.result hagain)]
    | _ => cases Tokenizer.look_error (t.peek_eq_look.symm.trans hpeek)
  · have hagain := consume_of_peek_end (congrArg Answer.result (peek_peek_end hpeek))
    rw [delivered_error (congrArg Answer.result (consume_of_peek_end hpeek)),
      delivered_error (congrArg Answer.result hagain)]
  · have hconsume := consume_of_peek_token hpeek
    have hagain := consume_of_peek_token (congrArg Answer.result (peek_peek hpeek))
    rw [delivered_ok (congrArg Answer.result hconsume),
      delivered_ok (congrArg Answer.result hagain), hconsume, hagain, peek_peek hpeek]

end Stream

namespace Tokenizer

/-- What a tokenizer holds it delivers first. -/
theorem delivered_held {t : Tokenizer} {token : Token} (h : t.front = .held token) :
    (Stream.tokenizer t).delivered = (Stream.tokenizer t.drop).delivered.cons token := by
  have hpeek : (Stream.tokenizer t).peek = ⟨.ok (some token), .tokenizer t, []⟩ := by
    simp [Stream.peek, peek, look, h]
  have hconsume := Stream.consume_of_peek_token (congrArg Answer.result hpeek)
  rw [hpeek] at hconsume
  rw [Stream.delivered_ok (congrArg Answer.result hconsume), hconsume]
  rfl

/-- The tokenizer delivers nothing but these tokens. -/
def DrawsFrom (tokens : List Token) (t : Tokenizer) : Prop :=
  ∀ token ∈ (Stream.tokenizer t).delivered.tokens, token ∈ tokens

theorem keeps_drawsFrom (tokens : List Token) : Keeps (·.DrawsFrom tokens) where
  peek t h := by
    show ∀ token ∈ (Stream.tokenizer t).peek.stream.delivered.tokens, token ∈ tokens
    rw [Stream.delivered_peek]
    exact h
  drop t h := by
    by_cases hheld : ∃ token, t.front = .held token
    · obtain ⟨token, hfront⟩ := hheld
      rw [DrawsFrom, delivered_held hfront] at h
      exact fun other hmem => h other (List.mem_cons_of_mem token hmem)
    · have hsame : t.drop = t := by
        unfold drop
        split
        next token hfront => exact absurd ⟨token, hfront⟩ hheld
        next => rfl
      rw [hsame]
      exact h

end Tokenizer

namespace Stream

/-- All tokens that the stack holds, now or later, are among these. -/
structure Stocked (tokens : List Token) (s : Stream) : Prop where
  bottom : s.Bottom (·.DrawsFrom tokens)
  held : ∀ token ∈ s.held, token ∈ tokens

/-- And the token that it takes back. -/
structure Drawn (tokens : List Token) (s : Stream) : Prop extends s.Stocked tokens where
  last : ∀ token, s.givable? = some token → token ∈ tokens

variable {s inner : Stream} {tokens : List Token}

theorem drawn_stack (layers : List Layer) (source : CharSource) :
    (stack layers source).Drawn (ofSource source).delivered.tokens := by
  have hheld : (stack layers source).held = [] := by
    refine stack_keeps (P := fun s => s.held = []) rfl (fun layer s hheld => ?_) layers
    cases layer <;> simpa [wrap, held] using hheld
  have hlast : (stack layers source).givable? = none := by
    refine stack_keeps (P := fun s => s.givable? = none) rfl (fun layer s _ => ?_) layers
    cases layer <;> rfl
  refine ⟨⟨bottom_stack (fun _ hmem => hmem) layers, ?_⟩, ?_⟩
  · rw [hheld]
    exact List.forall_mem_nil _
  · intro token h
    cases hlast.symm.trans h

theorem Drawn.inHand (h : s.Drawn tokens) : ∀ token ∈ s.inHand, token ∈ tokens := by
  intro token hmem
  rcases List.mem_append.1 hmem with hgiven | hheld
  · exact h.last token (Option.mem_toList.1 hgiven)
  · exact h.held token hheld

/-- What is below a layer is stocked with the same tokens. -/
theorem Stocked.below (h : s.Stocked tokens) (hinner : s.inner? = some inner) :
    inner.Stocked tokens := by
  refine ⟨(bottom_layer hinner).1 h.bottom, fun token hmem => h.held token ?_⟩
  rw [held_layer hinner]
  exact List.mem_append_right _ hmem

/-- A look finds no other tokens. -/
theorem Stocked.look (h : s.Stocked tokens) : s.peek.stream.Stocked tokens := by
  refine ⟨h.bottom.peek (Tokenizer.keeps_drawsFrom tokens), ?_⟩
  induction s using stackInduction with
  | script s => exact h.bottom.elim
  | tokenizer t =>
      have hlater : t.peek.2.1.DrawsFrom tokens :=
        h.bottom.peek (Tokenizer.keeps_drawsFrom tokens)
      intro token hmem
      have hfront : t.peek.2.1.front = .held token := by
        change token ∈ t.peek.2.1.front.tokens at hmem
        cases hfront : t.peek.2.1.front with
        | held first =>
            rw [hfront] at hmem
            rw [List.mem_singleton.1 hmem]
        | _ => simp [hfront, Front.tokens] at hmem
      apply hlater token
      rw [Tokenizer.delivered_held hfront]
      exact List.mem_cons_self
  | layer s inner hinner ih =>
      have hbelow := ih (h.below hinner)
      cases looks_layer hinner with
      | holds own result stream =>
          rw [stream]
          exact h.held
      | pulls own below pulled rest result =>
          rw [held_take (h.below hinner).bottom below] at hbelow
          rw [held_layer rest, pulled]
          exact hbelow
      | passes own below pulled rest result =>
          rw [held_layer rest, pulled]
          exact hbelow

/-- The token that a look shows is among them, and so are those behind it. -/
theorem Stocked.take (h : s.Stocked tokens) {token : Token}
    (hshown : s.peek.result = .ok (some token)) :
    token ∈ tokens ∧ s.peek.stream.drop.Stocked tokens := by
  have hheld := h.look.held
  rw [held_take h.bottom hshown] at hheld
  refine ⟨hheld token List.mem_cons_self, h.look.bottom.drop (Tokenizer.keeps_drawsFrom tokens), ?_⟩
  exact fun other hmem => hheld other (List.mem_cons_of_mem _ hmem)

/-- And so is what a pull of any number of tokens brings. -/
theorem Stocked.gather (h : inner.Stocked tokens) (missing : Nat) :
    let (pulled, answer) := Stream.gather missing [] inner []
    (∀ token ∈ pulled, token ∈ tokens) ∧ answer.stream.Stocked tokens := by
  refine gather_keeps
    (P := fun pulled below => (∀ token ∈ pulled, token ∈ tokens) ∧ below.Stocked tokens)
    ?_ ?_ ⟨List.forall_mem_nil _, h⟩ missing []
  · intro pulled below token hshown ⟨hpulled, hbelow⟩
    obtain ⟨hmem, hrest⟩ := hbelow.take hshown
    exact ⟨List.forall_mem_cons.2 ⟨hmem, hpulled⟩, hrest⟩
  · intro pulled below _ ⟨hpulled, hbelow⟩
    exact ⟨hpulled, hbelow.look⟩

theorem Drawn.look (h : s.Drawn tokens) : s.peek.stream.Drawn tokens :=
  ⟨h.toStocked.look, s.givable?_peek.symm ▸ h.last⟩

theorem Drawn.perform (h : s.Drawn tokens) (op : Operation) :
    (s.perform op).stream.Drawn tokens := by
  cases op with
  | peek => exact h.look
  | hasMore => exact h.look
  | consume =>
      show s.consume.stream.Drawn tokens
      rcases hresult : s.peek.result with error | _ | token
      · rw [consume_of_peek_error hresult]
        exact h.look
      · rw [consume_of_peek_end hresult]
        exact h.look
      · rw [consume_of_peek_token hresult]
        obtain ⟨hmem, hrest⟩ := h.toStocked.take hresult
        refine ⟨hrest, fun given hgiven => ?_⟩
        rw [givable?_take hresult given hgiven]
        exact hmem
  | peekNth n =>
      cases s with
      | buffer lookahead inner =>
          obtain ⟨hpulled, hbelow⟩ :=
            (h.toStocked.below rfl).gather (n + 1 - lookahead.queue.length)
          rw [(perform_peekNth lookahead inner n).2]
          refine ⟨⟨hbelow.bottom, fun token hmem => ?_⟩, h.last⟩
          rcases List.mem_append.1 hmem with hmem | hbelow'
          · rcases List.mem_append.1 hmem with hqueued | hnew
            · exact h.held token (List.mem_append_left _ hqueued)
            · exact hpulled token (List.mem_reverse.1 hnew)
          · exact hbelow.held token hbelow'
      | _ => exact h
  | pushback token =>
      cases s with
      | buffer lookahead inner =>
          by_cases hlast : lookahead.last = some token
          · rw [(perform_pushback_last hlast inner).2]
            refine ⟨⟨h.bottom, ?_⟩, nofun⟩
            exact List.forall_mem_cons.2 ⟨h.last token hlast, h.held⟩
          · rw [(perform_pushback_other hlast inner).2]
            exact ⟨⟨h.bottom, h.held⟩, h.last⟩
      | _ => exact h

theorem Drawn.after (h : s.Drawn tokens) (ops : List Operation) : (s.after ops).Drawn tokens := by
  induction ops generalizing s with
  | nil => exact h
  | cons op ops ih => exact ih (h.perform op)

-- =========================================================== failures are final

/-- A stack shows the tokens that it holds, all of them among these, and
else nothing but the error. It has stopped at this offset. -/
structure Final (error : LexError) (tokens : List Token) (offset : Nat) (s : Stream) : Prop where
  held : ∀ token ∈ s.held, token ∈ tokens
  peek : s.peek.result = (leftAt error s.held 0).map some
  hasMore : s.hasMore.result = (leftAt error s.held 0).map fun _ => true
  consume : s.consume.result = leftAt error s.held 0
  peekNth : ∀ n answer, s.peekNth? n = some answer →
    answer.result = (leftAt error s.held n).map some
  /-- All of the tokens are taken before the error is met. -/
  drained : s.results (List.replicate (s.held.length + 1) .consume)
    = s.held.map (fun token => .ok (.taken token)) ++ [.error error]
  offset : s.offset = offset

theorem Spent.final {error : LexError} {offset : Nat} (h : s.Spent error tokens offset) :
    s.Final error tokens offset where
  held := by
    cases h with
    | bare fixed held at_offset no_buffer => simp [held]
    | buffer fixed held at_offset queued last =>
        rw [Stream.held, held, List.append_nil]
        exact queued
  peek := h.peek_result
  hasMore := by
    show s.peek.result.map _ = _
    rw [h.peek_result]
    cases leftAt error s.held 0 <;> rfl
  consume := by
    rcases h.look with ⟨hfixed, hnone⟩ | ⟨token, rest, hshown, -, hheld, -⟩
    · rw [consume_of_peek_error (congrArg Answer.result hfixed), hnone]
      rfl
    · rw [consume_of_peek_token (congrArg Answer.result hshown), hheld]
      rfl
  peekNth n answer hanswer := (h.peekNth hanswer).2
  drained := h.results_consume
  offset := h.offset_eq

/-- Around any source with any layers, when an operation has answered with
a fatal error: the tokens in hand were delivered by the tokenizer, and
whatever is done later, only those are shown and taken, and all that are
held before the error is answered again. There is no other answer, and
the offset does not change. -/
theorem failure_is_final (source : CharSource) (layers : List Layer) (before : List Operation)
    (op : Operation) {error : LexError} (hfatal : error.isFatal = true)
    (h : (((stack layers source).after before).perform op).result = .error error)
    (later : List Operation) :
    let last := (((stack layers source).after before).perform op).stream
    (∀ token ∈ last.inHand, token ∈ (ofSource source).delivered.tokens)
      ∧ (last.after later).Final error last.inHand last.offset := by
  obtain ⟨failure, rfl⟩ : ∃ failure, error = .failure failure := by
    cases error with
    | failure failure => exact ⟨failure, rfl⟩
    | _ => cases hfatal
  have hbottom : ((stack layers source).after before).Bottom fun _ => True :=
    (bottom_stack trivial layers).after Tokenizer.keeps_true before
  refine ⟨(((drawn_stack layers source).after before).perform op).inHand, ?_⟩
  exact ((spent_perform hbottom h).after later).final

/-- Two tokens ahead in `( 'x` the quote is found that is never closed. The
delimiter and the space are still there, the delimiter is not reported. -/
theorem failure_is_final_lookahead :
    let last := (((stack [.balance, .buffer] (.ofString "( 'x")).after []).perform
      (.peekNth 2)).stream
    last.inHand = [⟨.symbol, "(", 0⟩, ⟨.space, " ", 1⟩]
      ∧ ∀ later, (last.after later).Final (.failure (.unterminatedQuote 2))
        [⟨.symbol, "(", 0⟩, ⟨.space, " ", 1⟩] 4 := by
  have hmet : (((stack [.balance, .buffer] (.ofString "( 'x")).after []).perform
      (.peekNth 2)).result = .error (.failure (.unterminatedQuote 2)) := by decide +kernel
  have hhand : (((stack [.balance, .buffer] (.ofString "( 'x")).after []).perform
      (.peekNth 2)).stream.inHand = [⟨.symbol, "(", 0⟩, ⟨.space, " ", 1⟩] := by decide +kernel
  have hoffset : (((stack [.balance, .buffer] (.ofString "( 'x")).after []).perform
      (.peekNth 2)).stream.offset = 4 := by decide +kernel
  refine ⟨hhand, fun later => ?_⟩
  rw [← hhand, ← hoffset]
  exact (failure_is_final _ _ _ _ rfl hmet later).2

end Stream

end LayeredLexer
